/-
# BibAudit.Proofs.Tex.Scan — what the scanner finds in a document.

The passes over a line, taken one after the other on its segments: the comment goes, the citation
commands give their keys, mathematics gives way to a space, the passes for other commands find
nothing, and the words that are left are the words of prose as they were written.  A document is read
line by line, so the same is true of all its lines, each with its number.  Lines are numbered from
one, so whatever is found in a document stands on a line that it has.
-/
import BibAudit.Proofs.Tex.Grammar

namespace BibAudit.Tex

variable {segments : List Segment} {path : SourcePath} {text : String} {line : List Char} {n : Nat}

/-! ## Segments one after the other -/

theorem stripComment_append (h : ∀ s ∈ segments, s.WellFormed) (rest : List Char) :
    stripComment (segments.flatMap Segment.written ++ rest) =
      segments.flatMap Segment.written ++ stripComment rest := by
  induction segments with
  | nil => rfl
  | cons s more ih =>
      obtain ⟨hs, hmore⟩ := List.forall_mem_cons.mp h
      rw [stripComment, List.flatMap_cons, List.append_assoc, Segment.stripFrom_written hs,
        ← stripComment, ih hmore, List.append_assoc]

theorem citedKeys_flatMap (segments : List Segment) :
    segments.flatMap (fun s => citedKeys s.keys) =
      citedKeys (segments.flatMap Segment.keys) := by
  simp only [citedKeys, List.map_flatMap, List.filter_flatMap]

/-- All keys of the citation commands are found. -/
theorem keys_found (h : ∀ s ∈ segments, s.WellFormed) :
    (findAll cite (segments.flatMap Segment.written)).flatMap keysOf =
      citedKeys (segments.flatMap Segment.keys) := by
  have hreads := readsAs_flatMap fun s hs => Segment.readsAs_cite (h s hs)
  rw [hreads.findAll_eq, List.filterMap_flatMap, List.flatMap_assoc, ← citedKeys_flatMap]
  exact List.flatMap_congr fun s hs => Segment.keysOf_found (h s hs)

theorem blankOut_cite (h : ∀ s ∈ segments, s.WellFormed) :
    blankOut cite (segments.flatMap Segment.written) = segments.flatMap Segment.uncited := by
  have hreads := readsAs_flatMap fun s hs => Segment.readsAs_cite (h s hs)
  rw [hreads.blankOut_eq, List.map_flatMap]
  exact List.flatMap_congr fun s _ => s.blanked_citePieces

theorem blankOut_inlineMath (h : ∀ s ∈ segments, s.WellFormed) :
    blankOut inlineMath (segments.flatMap Segment.uncited) = segments.flatMap Segment.shown := by
  have hreads := readsAs_flatMap fun s hs => Segment.readsAs_inlineMath (h s hs)
  rw [hreads.blankOut_eq, List.map_flatMap]
  exact List.flatMap_congr fun s _ => s.blanked_mathPieces

theorem backslash_not_mem_uncited (h : ∀ s ∈ segments, s.WellFormed) :
    '\\' ∉ segments.flatMap Segment.uncited := by
  intro hmem
  obtain ⟨s, hs, hin⟩ := List.mem_flatMap.mp hmem
  exact Segment.backslash_not_mem_uncited (h s hs) hin

theorem isMarkup_of_mem_shown (h : ∀ s ∈ segments, s.WellFormed) :
    ∀ c ∈ segments.flatMap Segment.shown, isMarkup c = false := by
  intro c hc
  obtain ⟨s, hs, hin⟩ := List.mem_flatMap.mp hc
  exact Segment.isMarkup_of_mem_shown (h s hs) c hin

/-- Ties and braces give way to spaces. -/
def untied (c : Char) : Char :=
  if c == '~' || c == '{' || c == '}' then ' ' else c

theorem prose_eq (line : List Char) : prose line =
    (blankOut command (blankOut inlineMath (blankOut silentCommand (blankOut cite
      (stripComment line))))).map untied :=
  rfl

/-- Nothing else gives way. -/
theorem map_untied {cs : List Char} (h : ∀ c ∈ cs, c ∉ ['~', '{', '}']) : cs.map untied = cs := by
  refine (List.map_congr_left fun c hc => if_neg ?_).trans (List.map_id cs)
  have hfree := h c hc
  simp only [List.mem_cons, List.not_mem_nil, or_false, not_or] at hfree
  simp [hfree]

/-- The words that are left of some, without the punctuation around them. -/
def bareWords (ws : List (List Char)) : List String :=
  ((ws.map bareWord).filter fun w => !w.isEmpty).map String.ofList

theorem wordsOn_eq (line : List Char) : wordsOn line = bareWords (Text.words (prose line)) := rfl

/-! ## Lines -/

/-- A line: its segments, and the comment if there is one. -/
structure LineDraft where
  segments : List Segment
  comment : Option (List Char)

namespace LineDraft

variable {l : LineDraft}

/-- The line as it is written. -/
def written (l : LineDraft) : List Char :=
  l.segments.flatMap Segment.written ++ l.comment.elim [] ('%' :: ·)

structure WellFormed (l : LineDraft) : Prop where
  segments : ∀ s ∈ l.segments, s.WellFormed
  apart : l.segments.IsChain Segment.Apart

instance (l : LineDraft) : Decidable l.WellFormed :=
  decidable_of_iff ((∀ s ∈ l.segments, s.WellFormed) ∧ l.segments.IsChain Segment.Apart)
    ⟨fun ⟨hs, hc⟩ => ⟨hs, hc⟩, fun h => ⟨h.segments, h.apart⟩⟩

/-- The keys of the line, as they are cited. -/
def keys (l : LineDraft) : List String :=
  citedKeys (l.segments.flatMap Segment.keys)

/-- The words of prose on the line, without the punctuation around them. -/
def words (l : LineDraft) : List String :=
  bareWords (l.segments.filterMap Segment.word?)

theorem stripComment_written (h : l.WellFormed) :
    stripComment l.written = l.segments.flatMap Segment.written := by
  have hcomment : stripComment (l.comment.elim [] ('%' :: ·)) = [] := by
    cases l.comment with
    | none => rfl
    | some comment => exact stripFrom_comment comment
  rw [written, stripComment_append h.segments, hcomment, List.append_nil]

theorem citedOn_written (h : l.WellFormed) : citedOn l.written = l.keys := by
  rw [citedOn, stripComment_written h, keys_found h.segments, keys]

theorem prose_written (h : l.WellFormed) : prose l.written = l.segments.flatMap Segment.shown := by
  have hbackslash := backslash_not_mem_uncited h.segments
  have hmarkup := isMarkup_of_mem_shown h.segments
  have hshown : '\\' ∉ l.segments.flatMap Segment.shown :=
    fun hmem => absurd (hmarkup '\\' hmem) (by decide)
  have hties : ∀ c ∈ l.segments.flatMap Segment.shown, c ∉ ['~', '{', '}'] :=
    fun c hc => not_tie_of_isMarkup (hmarkup c hc)
  rw [prose_eq, stripComment_written h, blankOut_cite h.segments,
    silentCommand_startsWith.blankOut_eq hbackslash, blankOut_inlineMath h.segments,
    command_startsWith.blankOut_eq hshown, map_untied hties]

theorem wordsOn_written (h : l.WellFormed) : wordsOn l.written = l.words := by
  rw [wordsOn_eq, prose_written h, Segment.words_shown h.segments h.apart, words]

end LineDraft

/-! ## Documents -/

theorem numberedLines_bounds (h : (line, n) ∈ numberedLines text) :
    1 ≤ n ∧ n ≤ (Text.lines text.toList).length := by
  have hfirst := List.le_snd_of_mem_zipIdx h
  have hlast := List.snd_lt_of_mem_zipIdx h
  simp only at hfirst hlast
  omega

theorem citation_bounds {c : Citation} (h : c ∈ citations path text) :
    c.location.path = path ∧ 1 ≤ c.location.line ∧
      c.location.line ≤ (Text.lines text.toList).length := by
  obtain ⟨⟨line, n⟩, hline, hc⟩ := List.mem_flatMap.mp h
  obtain ⟨key, -, rfl⟩ := List.mem_map.mp hc
  exact ⟨rfl, numberedLines_bounds hline⟩

theorem word_bounds {w : Word} (h : w ∈ (document path text).words) :
    1 ≤ w.line ∧ w.line ≤ (Text.lines text.toList).length := by
  obtain ⟨⟨line, n⟩, hline, hw⟩ := List.mem_flatMap.mp h
  obtain ⟨word, -, rfl⟩ := List.mem_map.mp hw
  exact numberedLines_bounds hline

/-- What is read on each line is read in the document, with the number of the line. -/
theorem flatMap_numberedLines {α β : Type} {text : String} {ls : List β}
    {written : β → List Char} (htext : Text.lines text.toList = ls.map written)
    {read : List Char → List String} {expected : β → List String}
    (h : ∀ l ∈ ls, read (written l) = expected l) (place : String → Nat → α) :
    ((numberedLines text).flatMap fun (line, n) => (read line).map fun s => place s n) =
      (ls.zipIdx 1).flatMap fun (l, n) => (expected l).map fun s => place s n := by
  rw [numberedLines, htext, List.zipIdx_map, List.flatMap_map]
  refine List.flatMap_congr fun (l, n) hl => ?_
  exact congrArg (List.map fun s => place s n) (h l (List.fst_mem_of_mem_zipIdx hl))

/-- Of a document whose lines are words, mathematics and citations, the scanner finds the keys that
are cited and the words of prose, all with their lines and in order; what is left of a word is the
core of it. -/
theorem scan_lines (path : SourcePath) {text : String} {ls : List LineDraft}
    (htext : Text.lines text.toList = ls.map LineDraft.written) (h : ∀ l ∈ ls, l.WellFormed) :
    (citations path text =
        (ls.zipIdx 1).flatMap fun (l, n) => l.keys.map fun key => ⟨key, ⟨path, n⟩⟩) ∧
      (document path text =
        ⟨path, (ls.zipIdx 1).flatMap fun (l, n) => l.words.map fun w => ⟨w, n⟩⟩) ∧
      ∀ token core, bareWord token = core ↔ IsCore token core := by
  have hkeys : ∀ l ∈ ls, citedOn l.written = l.keys :=
    fun l hl => LineDraft.citedOn_written (h l hl)
  have hwords : ∀ l ∈ ls, wordsOn l.written = l.words :=
    fun l hl => LineDraft.wordsOn_written (h l hl)
  refine ⟨?_, ?_, fun _ _ => bareWord_eq_iff⟩
  · exact flatMap_numberedLines htext hkeys fun key n => (⟨key, ⟨path, n⟩⟩ : Citation)
  · exact congrArg (Document.mk path)
      (flatMap_numberedLines htext hwords fun w n => (⟨w, n⟩ : Word))

/-- Two lines: the second one has no blanks around its command, and a key that is empty. -/
def mixedLines : List LineDraft :=
  [⟨[.word "See".toList, .gap " ".toList,
      .cite ⟨false, false, none, false, ["p.~5".toList], ["knuth84".toList, " lamport94".toList]⟩,
      .gap " ".toList, .word "(and".toList, .gap " ".toList, .math "x_1".toList,
      .word ")".toList, .gap " ".toList, .word "'now'.".toList],
    some " \\cite\x7bhidden\x7d".toList⟩,
   ⟨[.word "by".toList,
      .cite ⟨true, true, some 't', true, [], ["b".toList, [], " c ".toList]⟩,
      .word "end".toList, .math [], .gap "\t".toList, .word "...".toList], none⟩]

/-- The same lines as they are written. -/
def mixedText : String :=
  "See \\cite[p.~5]\x7bknuth84, lamport94\x7d (and $x_1$) 'now'.% \\cite\x7bhidden\x7d\r\n" ++
    "by\\noCitet*\x7bb,, c \x7dend$$\t..."

theorem scan_lines_mixed :
    Text.lines mixedText.toList = mixedLines.map LineDraft.written ∧
      (∀ l ∈ mixedLines, l.WellFormed) ∧
      citations ⟨"paper.tex"⟩ mixedText =
        [⟨"knuth84", ⟨⟨"paper.tex"⟩, 1⟩⟩, ⟨"lamport94", ⟨⟨"paper.tex"⟩, 1⟩⟩,
          ⟨"b", ⟨⟨"paper.tex"⟩, 2⟩⟩, ⟨"c", ⟨⟨"paper.tex"⟩, 2⟩⟩] ∧
      (document ⟨"paper.tex"⟩ mixedText).words =
        [⟨"See", 1⟩, ⟨"and", 1⟩, ⟨"now", 1⟩, ⟨"by", 2⟩, ⟨"end", 2⟩] := by
  have htext : Text.lines mixedText.toList = mixedLines.map LineDraft.written := by
    decide +kernel
  have hlines : ∀ l ∈ mixedLines, l.WellFormed := by decide +kernel
  obtain ⟨hcitations, hdocument, -⟩ := scan_lines ⟨"paper.tex"⟩ htext hlines
  refine ⟨htext, hlines, hcitations.trans ?_, (congrArg Document.words hdocument).trans ?_⟩
  · decide +kernel
  · decide +kernel

end BibAudit.Tex
