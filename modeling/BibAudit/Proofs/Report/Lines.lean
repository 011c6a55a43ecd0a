/-
# BibAudit.Proofs.Report.Lines — reports in lines of text are read again.

Each complaint has one line, and a note on complaints that were held back has the last one.  A line is
read from both ends: the path ends at the first colon and the name of the check begins behind the last
bracket, so that a message in between may hold colons, parentheses and brackets of its own.  A note is
told from a complaint about a file called `note` by the blank that stands where a line number would.
-/
import BibAudit.Proofs.Text.Digits
import BibAudit.Proofs.Text.Lines
import BibAudit.Proofs.Text.Trim
import BibAudit.Report.Lines

namespace BibAudit.Report

open Text (cutAt cutAt_append IsLine)

variable {front rest ds check : List Char} {c : Complaint} {r : Report}

/-! ## Reading a line -/

/-- What a line shows of a complaint. -/
structure Row where
  path : String
  line : Nat
  key : Option String
  message : String
  check : String
deriving DecidableEq

/-- What a line of the text form shows: a complaint, or a note on complaints held back. -/
inductive Shown
  | row (row : Row)
  | note (reason : String) (emitted total : Nat)
deriving DecidableEq

/-- What follows this front, if a text has it. -/
def after? (front cs : List Char) : Option (List Char) :=
  if front.isPrefixOf cs then some (cs.drop front.length) else none

/-- The digits in front, if there are any, and what follows them. -/
def digits? (cs : List Char) : Option (List Char × List Char) :=
  if (cs.takeWhile Char.isDigit).isEmpty then none
  else some (cs.takeWhile Char.isDigit, cs.dropWhile Char.isDigit)

/-- The key in front, if there is one, and what follows it. -/
def key? (cs : List Char) : Option (Option String × List Char) :=
  match after? " (".toList cs with
  | none => some (none, cs)
  | some inside => (cutAt ')' inside).map fun (key, rest) => (some (String.ofList key), rest)

/-- The message and the name of the check, which stands between the last brackets. -/
def ending? (cs : List Char) : Option (String × String) := do
  let back ← after? [']'] cs.reverse
  let (check, back) ← cutAt '[' back
  let back ← after? [' '] back
  return (String.ofList back.reverse, String.ofList check.reverse)

/-- The complaint on a line of the text form. -/
def textRow? (cs : List Char) : Option Row := do
  let (path, cs) ← cutAt ':' cs
  let (line, cs) ← digits? cs
  let (key, cs) ← key? cs
  let cs ← after? ": ".toList cs
  let (message, check) ← ending? cs
  return ⟨String.ofList path, Text.decimalValue line, key, message, check⟩

/-- The complaint on a line of the quickfix form, which shows no key. -/
def quickfixRow? (cs : List Char) : Option Row := do
  let (path, cs) ← cutAt ':' cs
  let (line, cs) ← digits? cs
  let cs ← after? ":1:".toList cs
  let (message, check) ← ending? cs
  return ⟨String.ofList path, Text.decimalValue line, none, message, check⟩

/-- The note on a line; its counts are read from the end. -/
def noteLine? (cs : List Char) : Option Shown := do
  let cs ← after? "note: ".toList cs
  let back ← after? " complaints shown)".toList.reverse cs.reverse
  let (total, back) ← digits? back
  let back ← after? " of ".toList.reverse back
  let (emitted, back) ← digits? back
  let back ← after? " (".toList.reverse back
  return .note (String.ofList back.reverse) (Text.decimalValue emitted.reverse)
    (Text.decimalValue total.reverse)

/-- What a line of the text form shows. -/
def shown? (cs : List Char) : Option Shown :=
  match textRow? cs with
  | some row => some (.row row)
  | none => noteLine? cs

/-! ## Parts of a line -/

theorem after?_append (front rest : List Char) : after? front (front ++ rest) = some rest := by
  rw [after?, if_pos (List.isPrefixOf_iff_prefix.mpr (List.prefix_append front rest)),
    List.drop_left]

theorem digits?_append (hd : Text.isNumeral ds = true) (hrest : ∀ c ∈ rest.head?, c.isDigit = false) :
    digits? (ds ++ rest) = some (ds, rest) := by
  rw [Text.isNumeral, Bool.and_eq_true, List.all_eq_true] at hd
  obtain ⟨hfilled, hdigits⟩ := hd
  rw [digits?, Text.takeWhile_run hdigits hrest, Text.dropWhile_run hdigits hrest,
    if_neg (by simpa using hfilled)]

theorem isNumeral_reverse (h : Text.isNumeral ds = true) : Text.isNumeral ds.reverse = true := by
  rw [Text.isNumeral] at h ⊢
  rwa [List.isEmpty_reverse, List.all_reverse]

theorem ending?_append (message : List Char) (h : '[' ∉ check) :
    ending? (message ++ (" [".toList ++ (check ++ [']']))) =
      some (String.ofList message, String.ofList check) := by
  have hback : (message ++ (" [".toList ++ (check ++ [']']))).reverse =
      [']'] ++ (check.reverse ++ '[' :: ([' '] ++ message.reverse)) := by simp
  have hcheck : '[' ∉ check.reverse := fun hmem => h (List.mem_reverse.mp hmem)
  simp only [ending?, hback, after?_append, cutAt_append hcheck, Option.bind_eq_bind,
    Option.bind_some, List.reverse_reverse]
  rfl

theorem key?_append {key : Option String} (h : ∀ k ∈ key, ')' ∉ k.toList) (rest : List Char) :
    key? ((keyText key).toList ++ (": ".toList ++ rest)) = some (key, ": ".toList ++ rest) := by
  cases key with
  | none => rfl
  | some k =>
      have htext : (keyText (some k)).toList ++ (": ".toList ++ rest) =
          " (".toList ++ (k.toList ++ ')' :: (": ".toList ++ rest)) := by
        have hkey : keyText (some k) = " (" ++ k ++ ")" := rfl
        rw [hkey, String.toList_append, String.toList_append]
        simp
      rw [htext, key?, after?_append]
      dsimp only
      rw [cutAt_append (h k rfl), Option.map_some, String.ofList_toList]

/-- A message on one line has no line breaks. -/
theorem lineBreak_not_mem_oneLine (message : String) :
    '\n' ∉ (oneLine message).toList ∧ '\r' ∉ (oneLine message).toList := by
  have hmem : ∀ c ∈ (oneLine message).toList, c ≠ '\n' ∧ c ≠ '\r' := by
    intro c hc
    rw [oneLine, String.toList_ofList] at hc
    obtain ⟨d, -, rfl⟩ := List.mem_map.mp hc
    split
    · decide
    · next hd => simpa [and_comm] using hd
  exact ⟨fun h => (hmem _ h).1 rfl, fun h => (hmem _ h).2 rfl⟩

theorem newline_not_mem_toString (n : Nat) : '\n' ∉ (toString n).toList := by
  intro hmem
  have hnumeral := Text.isNumeral_toString n
  rw [Text.isNumeral, Bool.and_eq_true, List.all_eq_true] at hnumeral
  have hdigit := hnumeral.2 _ hmem
  cases hdigit

/-! ## Lines as they are written -/

theorem toList_textLine (c : Complaint) : (textLine c).toList =
    c.location.path.text.toList ++ ':' :: ((toString c.location.line).toList ++
      ((keyText c.key).toList ++ (": ".toList ++ ((oneLine c.message).toList ++
        (" [".toList ++ (c.check.toList ++ [']'])))))) := by
  have hline : textLine c = c.location.path.text ++ ":" ++ toString c.location.line ++
      keyText c.key ++ ": " ++ oneLine c.message ++ " [" ++ c.check ++ "]" := rfl
  rw [hline]
  simp only [String.toList_append, List.append_assoc]
  rfl

theorem toList_quickfixLine (c : Complaint) : (quickfixLine c).toList =
    c.location.path.text.toList ++ ':' :: ((toString c.location.line).toList ++
      (":1:".toList ++ ((oneLine c.message).toList ++
        (" [".toList ++ (c.check.toList ++ [']']))))) := by
  have hline : quickfixLine c = c.location.path.text ++ ":" ++ toString c.location.line ++
      ":1:" ++ oneLine c.message ++ " [" ++ c.check ++ "]" := rfl
  rw [hline]
  simp only [String.toList_append, List.append_assoc]
  rfl

/-- The note on complaints held back. -/
def noteText (reason : String) (emitted total : Nat) : String :=
  s!"note: {reason} ({emitted} of {total} complaints shown)"

theorem note?_eq (s : Summary) : note? s =
    s.truncatedReason.map fun reason => noteText reason s.complaintsEmitted s.complaintsTotal := rfl

theorem toList_noteText (reason : String) (emitted total : Nat) :
    (noteText reason emitted total).toList =
      "note: ".toList ++ (reason.toList ++ (" (".toList ++ ((toString emitted).toList ++
        (" of ".toList ++ ((toString total).toList ++ " complaints shown)".toList))))) := by
  have hnote : noteText reason emitted total = "note: " ++ reason ++ " (" ++ toString emitted ++
      " of " ++ toString total ++ " complaints shown)" := rfl
  rw [hnote]
  simp only [String.toList_append, List.append_assoc]

/-! ## Lines that can be read -/

/-- The path of the complaint ends at the first colon of its line, its key at the first parenthesis
behind that, and the name of its check begins behind the last bracket; none of them breaks the line. -/
structure FitsLine (c : Complaint) : Prop where
  path : ':' ∉ c.location.path.text.toList ∧ '\n' ∉ c.location.path.text.toList
  key : ∀ k ∈ c.key, ')' ∉ k.toList ∧ '\n' ∉ k.toList
  check : '[' ∉ c.check.toList ∧ '\n' ∉ c.check.toList

/-- Every complaint fits a line, and the reason for holding complaints back does not break one. -/
structure FitsLines (r : Report) : Prop where
  complaint : ∀ c ∈ r.complaints, FitsLine c
  reason : ∀ reason ∈ r.summary.truncatedReason, '\n' ∉ reason.toList

/-- What lines show of a complaint. -/
def rowOf (c : Complaint) : Row :=
  ⟨c.location.path.text, c.location.line, c.key, oneLine c.message, c.check⟩

/-- What the quickfix form shows of a complaint. -/
def unkeyedRowOf (c : Complaint) : Row :=
  { rowOf c with key := none }

/-- What the text form shows of a report. -/
def shownOf (r : Report) : List Shown :=
  r.complaints.map (fun c => .row (rowOf c)) ++ r.summary.truncatedReason.toList.map fun reason =>
    .note reason r.summary.complaintsEmitted r.summary.complaintsTotal

theorem head_keyText (key : Option String) (rest : List Char) :
    ∀ c ∈ ((keyText key).toList ++ (": ".toList ++ rest)).head?, c.isDigit = false := by
  cases key with
  | none =>
      rintro c ⟨⟩
      rfl
  | some k =>
      have hkey : (keyText (some k)).toList = ' ' :: ("(".toList ++ (k.toList ++ ")".toList)) := by
        have htext : keyText (some k) = " (" ++ k ++ ")" := rfl
        rw [htext, String.toList_append, String.toList_append, List.append_assoc]
        rfl
      rw [hkey]
      rintro c ⟨⟩
      rfl

theorem textRow?_textLine (h : FitsLine c) : textRow? (textLine c).toList = some (rowOf c) := by
  have hkey : ∀ k ∈ c.key, ')' ∉ k.toList := fun k hk => (h.key k hk).1
  simp only [textRow?, toList_textLine, cutAt_append h.path.1,
    digits?_append (Text.isNumeral_toString c.location.line) (head_keyText c.key _),
    key?_append hkey, after?_append, ending?_append _ h.check.1, Option.bind_eq_bind,
    Option.bind_some, String.ofList_toList, Text.decimalValue_toString]
  rfl

theorem quickfixRow?_quickfixLine (h : FitsLine c) :
    quickfixRow? (quickfixLine c).toList = some (unkeyedRowOf c) := by
  have hcolon : ∀ d ∈ (":1:".toList ++ ((oneLine c.message).toList ++
      (" [".toList ++ (c.check.toList ++ [']'])))).head?, d.isDigit = false := by
    rintro d ⟨⟩
    rfl
  simp only [quickfixRow?, toList_quickfixLine, cutAt_append h.path.1,
    digits?_append (Text.isNumeral_toString c.location.line) hcolon, after?_append,
    ending?_append _ h.check.1, Option.bind_eq_bind, Option.bind_some, String.ofList_toList,
    Text.decimalValue_toString]
  rfl

theorem shown?_textLine (h : FitsLine c) : shown? (textLine c).toList = some (.row (rowOf c)) := by
  rw [shown?, textRow?_textLine h]

/-- A note is no complaint: a blank stands where a line number would. -/
theorem textRow?_noteText (reason : String) (emitted total : Nat) :
    textRow? (noteText reason emitted total).toList = none := by
  have hcolon : ':' ∉ "note".toList := by decide
  have hfront : ∀ rest : List Char, "note: ".toList ++ rest = "note".toList ++ ':' :: (' ' :: rest) :=
    fun _ => rfl
  rw [toList_noteText, hfront, textRow?, cutAt_append hcolon]
  rfl

theorem noteLine?_noteText (reason : String) (emitted total : Nat) :
    noteLine? (noteText reason emitted total).toList = some (.note reason emitted total) := by
  have hback : (reason.toList ++ (" (".toList ++ ((toString emitted).toList ++ (" of ".toList ++
      ((toString total).toList ++ " complaints shown)".toList))))).reverse =
        " complaints shown)".toList.reverse ++ ((toString total).toList.reverse ++
          (" of ".toList.reverse ++ ((toString emitted).toList.reverse ++
            (" (".toList.reverse ++ reason.toList.reverse)))) := by
    simp only [List.reverse_append, List.append_assoc]
  have hof : ∀ rest, ∀ d ∈ (" of ".toList.reverse ++ rest).head?, d.isDigit = false := by
    rintro rest d ⟨⟩
    rfl
  have hopen : ∀ rest, ∀ d ∈ (" (".toList.reverse ++ rest).head?, d.isDigit = false := by
    rintro rest d ⟨⟩
    rfl
  simp only [noteLine?, toList_noteText, after?_append, hback, Option.bind_eq_bind,
    Option.bind_some, digits?_append (isNumeral_reverse (Text.isNumeral_toString total)) (hof _),
    digits?_append (isNumeral_reverse (Text.isNumeral_toString emitted)) (hopen _),
    List.reverse_reverse, String.ofList_toList, Text.decimalValue_toString]
  rfl

theorem shown?_noteText (reason : String) (emitted total : Nat) :
    shown? (noteText reason emitted total).toList = some (.note reason emitted total) := by
  rw [shown?, textRow?_noteText, noteLine?_noteText]

/-! ## Reports in lines -/

theorem isLine_concat {z : Char} (h : '\n' ∉ front) (hz : z ≠ '\n' ∧ z ≠ '\r') :
    IsLine (front ++ [z]) := by
  constructor
  · rw [List.mem_append, List.mem_singleton, not_or]
    exact ⟨h, hz.1.symm⟩
  · rw [List.getLast?_concat]
    rintro ⟨⟩
    exact hz.2 rfl

theorem newline_not_mem_keyText {key : Option String} (h : ∀ k ∈ key, '\n' ∉ k.toList) :
    '\n' ∉ (keyText key).toList := by
  cases key with
  | none => exact List.not_mem_nil
  | some k =>
      have hkey : keyText (some k) = " (" ++ k ++ ")" := rfl
      rw [hkey, String.toList_append, String.toList_append]
      simp only [List.mem_append, not_or]
      exact ⟨⟨by decide, h k rfl⟩, by decide⟩

theorem isLine_textLine (h : FitsLine c) : IsLine (textLine c).toList := by
  have hconcat : (textLine c).toList = (c.location.path.text.toList ++ ':' ::
      ((toString c.location.line).toList ++ ((keyText c.key).toList ++ (": ".toList ++
        ((oneLine c.message).toList ++ (" [".toList ++ c.check.toList)))))) ++ [']'] := by
    simp only [toList_textLine, List.append_assoc, List.cons_append]
  have hkey := newline_not_mem_keyText fun k hk => (h.key k hk).2
  rw [hconcat]
  refine isLine_concat ?_ (by decide)
  simp only [List.mem_append, List.mem_cons, not_or]
  exact ⟨h.path.2, by decide, newline_not_mem_toString _, hkey, by decide,
    (lineBreak_not_mem_oneLine _).1, by decide, h.check.2⟩

theorem isLine_quickfixLine (h : FitsLine c) : IsLine (quickfixLine c).toList := by
  have hconcat : (quickfixLine c).toList = (c.location.path.text.toList ++ ':' ::
      ((toString c.location.line).toList ++ (":1:".toList ++
        ((oneLine c.message).toList ++ (" [".toList ++ c.check.toList))))) ++ [']'] := by
    simp only [toList_quickfixLine, List.append_assoc, List.cons_append]
  rw [hconcat]
  refine isLine_concat ?_ (by decide)
  simp only [List.mem_append, List.mem_cons, not_or]
  exact ⟨h.path.2, by decide, newline_not_mem_toString _, by decide,
    (lineBreak_not_mem_oneLine _).1, by decide, h.check.2⟩

theorem isLine_noteText {reason : String} (h : '\n' ∉ reason.toList) (emitted total : Nat) :
    IsLine (noteText reason emitted total).toList := by
  have hconcat : (noteText reason emitted total).toList =
      ("note: ".toList ++ (reason.toList ++ (" (".toList ++ ((toString emitted).toList ++
        (" of ".toList ++ ((toString total).toList ++ " complaints shown".toList)))))) ++ [')'] := by
    have hclosed : " complaints shown)".toList = " complaints shown".toList ++ [')'] := rfl
    simp only [toList_noteText, hclosed, List.append_assoc]
  rw [hconcat]
  refine isLine_concat ?_ (by decide)
  simp only [List.mem_append, not_or]
  exact ⟨by decide, h, by decide, newline_not_mem_toString _, by decide,
    newline_not_mem_toString _, by decide⟩

/-- Lines that were joined are cut apart again. -/
theorem lines_joinLines {ls : List String} (h : ∀ l ∈ ls, IsLine l.toList) :
    Text.lines (joinLines ls).toList = ls.map String.toList := by
  have hlines : ∀ l ∈ ls.map String.toList, IsLine l := by
    rintro _ hl
    obtain ⟨l, hmem, rfl⟩ := List.mem_map.mp hl
    exact h l hmem
  have htext : (joinLines ls).toList = Text.unlines (ls.map String.toList) := by
    rw [joinLines, String.toList_join, List.flatMap_map, Text.unlines, List.flatMap_map]
    simp only [String.toList_append]
    rfl
  rw [htext, Text.lines_unlines hlines]

theorem lines_renderText (h : FitsLines r) : Text.lines (renderText r).toList =
    r.complaints.map (fun c => (textLine c).toList) ++
      (note? r.summary).toList.map String.toList := by
  have hlines : ∀ l ∈ r.complaints.map textLine ++ (note? r.summary).toList, IsLine l.toList := by
    intro l hl
    rcases List.mem_append.mp hl with hcomplaint | hnote
    · obtain ⟨c, hc, rfl⟩ := List.mem_map.mp hcomplaint
      exact isLine_textLine (h.complaint c hc)
    · rw [Option.mem_toList, note?_eq] at hnote
      obtain ⟨reason, hreason, rfl⟩ := Option.map_eq_some_iff.mp hnote
      exact isLine_noteText (h.reason reason hreason) _ _
  rw [renderText, lines_joinLines hlines, List.map_append, List.map_map]
  rfl

theorem lines_renderQuickfix (h : FitsLines r) : Text.lines (renderQuickfix r).toList =
    r.complaints.map fun c => (quickfixLine c).toList := by
  have hlines : ∀ l ∈ r.complaints.map quickfixLine, IsLine l.toList := by
    intro l hl
    obtain ⟨c, hc, rfl⟩ := List.mem_map.mp hl
    exact isLine_quickfixLine (h.complaint c hc)
  rw [renderQuickfix, lines_joinLines hlines, List.map_map]
  rfl

/-- Reading the text form, line by line. -/
theorem shown?_renderText (h : FitsLines r) :
    (Text.lines (renderText r).toList).map shown? = (shownOf r).map some := by
  have hrows : r.complaints.map (shown? ∘ fun c => (textLine c).toList) =
      r.complaints.map (some ∘ fun c => Shown.row (rowOf c)) :=
    List.map_congr_left fun c hc => shown?_textLine (h.complaint c hc)
  rw [lines_renderText h, shownOf, note?_eq]
  rw [List.map_append, List.map_append, List.map_map, List.map_map, List.map_map, hrows]
  congr 1
  cases r.summary.truncatedReason with
  | none => rfl
  | some reason => exact congrArg (fun shown => [shown]) (shown?_noteText reason _ _)

/-- Reading the quickfix form, line by line. -/
theorem quickfixRow?_renderQuickfix (h : FitsLines r) :
    (Text.lines (renderQuickfix r).toList).map quickfixRow? =
      (r.complaints.map unkeyedRowOf).map some := by
  rw [lines_renderQuickfix h, List.map_map, List.map_map]
  exact List.map_congr_left fun c hc => quickfixRow?_quickfixLine (h.complaint c hc)

/-- Both forms are read again, one line per complaint in order and in the text form one more if and
only if the summary says why complaints were held back; so reports that show different things are
written differently. -/
theorem forms_readBack (h : FitsLines r) :
    ((Text.lines (renderText r).toList).map shown? = (shownOf r).map some ∧
      (Text.lines (renderQuickfix r).toList).map quickfixRow? =
        (r.complaints.map unkeyedRowOf).map some) ∧
    ∀ s, FitsLines s →
      (renderText s = renderText r → shownOf s = shownOf r) ∧
      (renderQuickfix s = renderQuickfix r →
        s.complaints.map unkeyedRowOf = r.complaints.map unkeyedRowOf) := by
  have hsome : ∀ {α : Type} {xs ys : List α}, xs.map some = ys.map some → xs = ys := by
    intro α xs ys hmap
    exact List.map_inj_right (fun _ _ => Option.some.inj) |>.mp hmap
  refine ⟨⟨shown?_renderText h, quickfixRow?_renderQuickfix h⟩, fun s hs => ⟨?_, ?_⟩⟩
  -- What one text is read as does not depend on the report that it came from.
  · intro htext
    apply hsome
    rw [← shown?_renderText hs, htext, shown?_renderText h]
  · intro htext
    apply hsome
    rw [← quickfixRow?_renderQuickfix hs, htext, quickfixRow?_renderQuickfix h]

instance (c : Complaint) : Decidable (FitsLine c) :=
  decidable_of_iff
    ((':' ∉ c.location.path.text.toList ∧ '\n' ∉ c.location.path.text.toList) ∧
      (∀ k ∈ c.key, ')' ∉ k.toList ∧ '\n' ∉ k.toList) ∧
      '[' ∉ c.check.toList ∧ '\n' ∉ c.check.toList)
    ⟨fun ⟨path, key, check⟩ => ⟨path, key, check⟩, fun h => ⟨h.path, h.key, h.check⟩⟩

instance (r : Report) : Decidable (FitsLines r) :=
  decidable_of_iff
    ((∀ c ∈ r.complaints, FitsLine c) ∧ ∀ reason ∈ r.summary.truncatedReason, '\n' ∉ reason.toList)
    ⟨fun ⟨complaint, reason⟩ => ⟨complaint, reason⟩, fun h => ⟨h.complaint, h.reason⟩⟩

/-- A cut report on a file called `note`, with a message that looks like the end of a line, a key with
a colon, and a message of two lines. -/
def noteReport : Report where
  schema := currentSchema
  tool := currentTool
  startedAt := .epoch
  finishedAt := .epoch
  summary := ⟨1, 2, 0, 0, 17, 0, 3, 2, some "limit (1 of 2 complaints shown)"⟩
  complaints :=
    [⟨⟨⟨"note"⟩, 12⟩, none, "check-isbn", "bad (key): [check] [x]", []⟩,
    ⟨⟨⟨"a (b)"⟩, 4⟩, some "k: [x", "misformatted-month", "two\r\nlines", []⟩]

theorem forms_readBack_note :
    FitsLines noteReport ∧
    (Text.lines (renderText noteReport).toList).map shown? =
      [some (.row ⟨"note", 12, none, "bad (key): [check] [x]", "check-isbn"⟩),
        some (.row ⟨"a (b)", 4, some "k: [x", "two  lines", "misformatted-month"⟩),
        some (.note "limit (1 of 2 complaints shown)" 2 3)] ∧
    FitsLines { noteReport with complaints := [] } ∧
    renderText { noteReport with complaints := [] } ≠ renderText noteReport := by
  have hfits : FitsLines { noteReport with complaints := [] } := by decide
  obtain ⟨⟨htext, -⟩, hdiffer⟩ := forms_readBack (r := noteReport) (by decide)
  refine ⟨by decide, htext.trans (by decide), hfits, ?_⟩
  intro hsame
  have hshown := (hdiffer _ hfits).1 hsame
  revert hshown
  decide

end BibAudit.Report
