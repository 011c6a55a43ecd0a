/-
# BibAudit.Proofs.Bib.Waiting — a directive reaches the next header, wherever it stands.

Between two headers, or before the first one, every directive waits for the header that comes next,
whether it stands between entries, inside an entry or inside a value with open braces, and whatever
else is wrong on the lines around it.  Only in an open special block it is passed over.  A header
takes all that wait, so none reaches an earlier entry or a later one, and those after the last header
reach nothing.

The invariant of the reader is that its queue is what the lines so far leave waiting.
-/
import BibAudit.Proofs.Bib.Headings
import BibAudit.Proofs.Bib.Queue

namespace BibAudit.Bib

open Text (lowerAscii_lowerAscii)

variable {before : List (List Char)} {raw : List Char} {c : Cursor} {pending : List Directive}

/-! ## What waits after some lines -/

/-- The line begins an entry. -/
def LineKind.isHeader : LineKind → Bool
  | .header .. => true
  | _ => false

/-- The directive on a line of some kind. -/
def LineKind.asks : LineKind → List Directive
  | .suppression check reason => [directive check reason]
  | _ => []

/-- The directives on the lines that no header follows there; `outer` are the lines before these. -/
def waitingOn (outer : List (List Char)) : List (List Char) → List Directive
  | [] => []
  | raw :: rest =>
    (if blockOpen outer || rest.any fun later => (classify later).isHeader then []
      else (classify raw).asks) ++ waitingOn (outer ++ [raw]) rest

/-- The directives that wait for a header after the lines: those on the lines since the last header,
but for lines in an open special block. -/
def waiting (before : List (List Char)) : List Directive :=
  waitingOn [] before

/-- The headings on the lines, each with the last reasons of the directives that wait there. -/
def directedOn (before : List (List Char)) :
    List (List Char) → List (Heading × List (String × Option String))
  | [] => []
  | raw :: rest =>
    ((heading? (before.length + 1) (classify raw)).toList.map fun h =>
      (h, lastReasons (waiting before))) ++ directedOn (before ++ [raw]) rest

theorem waitingOn_concat (outer ls : List (List Char)) (raw : List Char) :
    waitingOn outer (ls ++ [raw]) =
      if (classify raw).isHeader then []
      else waitingOn outer ls ++ if blockOpen (outer ++ ls) then [] else (classify raw).asks := by
  induction ls generalizing outer with
  | nil =>
      cases hkind : classify raw <;> simp [waitingOn, hkind, LineKind.isHeader, LineKind.asks]
  | cons first rest ih =>
      rw [List.cons_append, waitingOn, ih, waitingOn, List.any_append]
      cases hraw : (classify raw).isHeader with
      | true => simp [hraw]
      | false => simp [hraw]

theorem waiting_concat (before : List (List Char)) (raw : List Char) :
    waiting (before ++ [raw]) =
      if (classify raw).isHeader then []
      else waiting before ++ if blockOpen before then [] else (classify raw).asks :=
  waitingOn_concat [] before raw

/-! ## The queue of the reader -/

/-- A line that is read between entries, being a boundary if a special block is open before it. -/
theorem pending_stepOutside (path : SourcePath) (line : Nat) (hp : pending = waiting before)
    (hb : blockOpen before = true → (classify raw).isBoundary = true) :
    (stepOutside path line raw pending (classify raw)).1.pending = waiting (before ++ [raw]) := by
  rw [waiting_concat, hp]
  cases hkind : classify raw with
  | header kind key rest => rfl
  | suppression check reason =>
      have hclosed : blockOpen before = false := by
        rw [Bool.eq_false_iff]
        intro hopen
        have hboundary := hb hopen
        rw [hkind] at hboundary
        cases hboundary
      rw [hclosed]
      rfl
  | _ => simp [stepOutside, LineKind.isHeader, LineKind.asks]

/-- A line inside an entry that does not end it by its kind. -/
theorem pending_stepInside (o : OpenEntry) (line : Nat) (hp : pending = waiting before)
    (hb : blockOpen before = false) (hr : (classify raw).isBoundary = false) :
    (stepInside o line raw pending (classify raw)).1.pending = waiting (before ++ [raw]) := by
  rw [waiting_concat, hp, hb]
  cases hkind : classify raw with
  | header kind key rest =>
      rw [hkind] at hr
      cases hr
  | suppression check reason => rfl
  | _ => simp [stepInside, LineKind.isHeader, LineKind.asks]

/-- One line: the queue is what waits after the lines with that one. -/
theorem pending_step (hf : c.Follows before) (hp : c.pending = waiting before) (path : SourcePath)
    (line : Nat) (raw : List Char) :
    (step path c line raw).1.pending = waiting (before ++ [raw]) := by
  obtain ⟨state, pending⟩ := c
  cases state with
  | outside skipping =>
      obtain ⟨-, hblock⟩ := hf
      simp only [step]
      split
      · next hskips =>
          obtain ⟨hpos, hr⟩ := skips_iff.mp hskips
          rw [waiting_concat, hblock.open_iff.mpr hpos, ← hp]
          cases hkind : classify raw with
          | header kind key rest =>
              rw [hkind] at hr
              cases hr
          | _ => simp [LineKind.isHeader]
      · next hreads => exact pending_stepOutside path line hp (hblock.isBoundary_of_read hreads)
  | inEntry o =>
      obtain ⟨-, hblock⟩ := hf
      simp only [step]
      split
      · next hends => exact pending_stepOutside path line hp fun _ => hends
      · next hstays => exact pending_stepInside o line hp hblock (by simpa using hstays)

/-! ## Entries and the directives that they met -/

/-- What the header and the directives before it made of an entry. -/
def directed (e : Entry) : Heading × List (String × Option String) :=
  (e.heading, e.suppressions)

theorem small_of_mem_waitingOn {outer ls : List (List Char)} {d : Directive}
    (h : d ∈ waitingOn outer ls) : small d = d := by
  induction ls generalizing outer with
  | nil => exact absurd h List.not_mem_nil
  | cons raw rest ih =>
      rw [waitingOn] at h
      rcases List.mem_append.mp h with h | h
      · split at h
        · exact absurd h List.not_mem_nil
        · cases hkind : classify raw with
          | suppression check reason =>
              rw [hkind] at h
              obtain rfl := List.mem_singleton.mp h
              exact Prod.ext (lowerAscii_lowerAscii _) rfl
          | _ => rw [hkind] at h; exact absurd h List.not_mem_nil
      · exact ih h

/-- The entry of a header takes the last reasons of what waits there. -/
theorem suppressions_headerEntry (path : SourcePath) (line : Nat) (kind key : List Char)
    (before : List (List Char)) :
    (headerEntry path line kind key (waiting before)).suppressions =
      lastReasons (waiting before) := by
  have hsmall : (waiting before).map small = waiting before :=
    (List.map_congr_left fun d hd => small_of_mem_waitingOn hd).trans (List.map_id _)
  rw [headerEntry, foldl_suppress_small _ _ rfl, hsmall]

theorem directed_begun? (path : SourcePath) (line : Nat) (before : List (List Char))
    (kind : LineKind) :
    (begun? path line (waiting before) kind).toList.map directed =
      (heading? line kind).toList.map fun h => (h, lastReasons (waiting before)) := by
  cases kind with
  | header kind key rest =>
      have hheading := heading_headerEntry path line kind key (waiting before)
      have hreasons := suppressions_headerEntry path line kind key before
      exact congrArg (fun d => [d]) (Prod.ext hheading hreasons)
  | _ => rfl

/-- The entries yielded from here on are the open one and those of the headers to come, each of which
takes what waits there. -/
theorem directed_readLines (hf : c.Follows before) (hp : c.pending = waiting before)
    (path : SourcePath) (ls : List (List Char)) :
    (readLines path c before.length ls).bares.map directed =
      c.openBare.map directed ++ directedOn before ls := by
  induction ls generalizing c before with
  | nil =>
      obtain ⟨state, pending⟩ := c
      cases state with
      | outside skipping => rfl
      | inEntry o =>
          have hbares := congrArg (List.map directed) (bares_finish o before.length)
          rw [List.map_singleton] at hbares
          exact hbares
  | cons raw rest ih =>
      rcases hs : step path c (before.length + 1) raw with ⟨c', y⟩
      have hstep := congrArg (List.map directed) (bares_step path c (before.length + 1) raw)
      have hf' := follows_step hf path (before.length + 1) raw
      have hp' := pending_step hf hp path (before.length + 1) raw
      rw [hs] at hstep hf' hp'
      rw [List.map_append, List.map_append, hp, directed_begun?] at hstep
      have hrest := ih hf' hp'
      rw [List.length_append, List.length_singleton] at hrest
      rw [readLines_cons hs, Yield.bares_append, List.map_append, hrest, directedOn,
        ← List.append_assoc, hstep, List.append_assoc]

/-- Every header line of a file gives its entry, in order, and the checks that are to leave the entry
alone are those that directives since the header before ask for, each with its last reason. -/
theorem read_directed (path : SourcePath) (text : String) :
    (read path text).entries.map (fun e => (e.heading, e.suppressions)) =
      directedOn [] (Text.lines text.toList) := by
  have hread := directed_readLines follows_start rfl path (Text.lines text.toList)
  rw [Yield.bares, List.map_map] at hread
  exact hread

example : (read ⟨"refs.bib"⟩
    ("% LINT isbn old\n@misc\x7ba, note = \x7bopen,\n% LINT doi\n@string\x7b\n% LINT url\n\x7d\n" ++
      "\x7d\n% LINT ISBN new\n% LINT isbn\n@misc\x7bb,\n\x7d\n% LINT doi\n")).entries.map
      (fun e => (e.key, e.suppressions)) =
    [("a", [("isbn", some "old")]), ("b", [("doi", none), ("isbn", none)])] := by
  decide +kernel

end BibAudit.Bib
