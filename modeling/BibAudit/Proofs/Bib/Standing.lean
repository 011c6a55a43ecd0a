/-
# BibAudit.Proofs.Bib.Standing — what the lines before a line leave open.

Whether an entry is open at a line, or a special block, is said here of the lines before it and not
of the reader.  An entry is open if those lines end in a header and lines that do not end its entry;
a special block is open if they end in its first line and lines over which its braces stay open, none
of them a boundary.  The reader, having read the lines, stands in an entry or skips exactly then.
-/
import BibAudit.Proofs.Bib.Run
import Mathlib.Algebra.Ring.Int.Defs
import Mathlib.Data.List.Infix

namespace BibAudit.Bib

variable {before part : List (List Char)} {raw : List Char} {c : Cursor}

/-! ## Header lines -/

/-- The value of a field on a header line closes more braces than it opens, the last of them at its
end: that brace closes the entry. -/
def closesEntry (value : List Char) : Bool :=
  Value.balance value < 0 && value.getLast? == some '}'

/-- What follows the key of a header closes its entry on the same line. -/
def closesItself (rest : List Char) : Bool :=
  (Text.trim rest).head? == some '}' || (field? (Text.trim rest)).any fun f => closesEntry f.2

/-- The name and the value of a field on a header line, without the brace that closes the entry. -/
def headerField? (rest : List Char) : Option (List Char × List Char) :=
  (field? (Text.trim rest)).map fun f =>
    (f.1, if closesEntry f.2 then f.2.dropLast else f.2)

/-- A field that starts on a line with this value. -/
def OpenField.start (line : Nat) (name value : List Char) : OpenField :=
  ⟨name, Text.trim value, line, Value.balance (Text.trim value)⟩

/-- The entry of a header, with the field on its line if there is one. -/
def headerOpen (entry : Entry) (line : Nat) (rest : List Char) : OpenEntry :=
  ⟨entry, (headerField? rest).map fun f => .start line f.1 f.2⟩

theorem openField_fresh (entry : Entry) (line : Nat) (name value : List Char) :
    openField ⟨entry, none⟩ line name value = (⟨entry, some (.start line name value)⟩, []) := rfl

theorem field?_brace (cs : List Char) : field? ('}' :: cs) = none := rfl

/-- A header opens its entry and the field on its line, and closes both if it closes itself. -/
theorem headerRest_eq (entry : Entry) (line : Nat) (rest : List Char) :
    headerRest entry line rest =
      if closesItself rest then (.outside 0, finish (headerOpen entry line rest) line)
      else (.inEntry (headerOpen entry line rest), .empty) := by
  rw [headerRest, closesItself, headerOpen, headerField?]
  split
  · next hrest =>
      rw [hrest]
      rfl
  · next hrest =>
      rw [hrest, field?_brace]
      rfl
  · next hnil hbrace =>
      have hhead : ((Text.trim rest).head? == some '}') = false := by
        rw [beq_eq_false_iff_ne]
        intro h
        obtain ⟨more, hmore⟩ := List.head?_eq_some_iff.mp h
        exact hbrace more hmore
      rw [hhead, Bool.false_or]
      split
      · next hfield =>
          rw [hfield]
          rfl
      · next name value hfield =>
          have hcloses : (Value.balance value < 0 && value.getLast? == some '}') =
              closesEntry value := rfl
          rw [hfield, hcloses, Option.any_some, Option.map_some, Option.map_some, openField_fresh,
            openField_fresh]
          cases closesEntry value with
          | true =>
              simp only [if_true]
              exact congrArg (State.outside 0, ·) (Yield.empty_append _)
          | false =>
              simp only [Bool.false_eq_true, if_false]
              rfl

/-! ## Entries -/

/-- The line ends the entry that is open. -/
def LineKind.endsEntry (kind : LineKind) : Bool :=
  kind.isBoundary || kind == .close

/-- The line is a header that leaves its entry open. -/
def LineKind.opensEntry : LineKind → Bool
  | .header _ _ rest => !closesItself rest
  | _ => false

/-- The lines are a header and lines that do not end its entry. -/
def leavesEntryOpen : List (List Char) → Bool
  | [] => false
  | first :: body => (classify first).opensEntry && body.all fun raw => !(classify raw).endsEntry

/-- An entry is open after the lines. -/
def entryOpen (before : List (List Char)) : Bool :=
  before.tails.any leavesEntryOpen

/-- What some last lines are, when there is one more: the same lines with that one. -/
theorem any_tails_concat {p : List (List Char) → Bool} (hp : p [] = false)
    (before : List (List Char)) (raw : List Char) :
    (before ++ [raw]).tails.any p = before.tails.any fun part => p (part ++ [raw]) := by
  rw [List.tails_append, List.any_append, List.any_map]
  simp [hp, Function.comp_def]

/-- One more line opens an entry, or does not end the one that is open. -/
theorem entryOpen_concat (before : List (List Char)) (raw : List Char) :
    entryOpen (before ++ [raw]) =
      ((classify raw).opensEntry || (entryOpen before && !(classify raw).endsEntry)) := by
  have hpart : ∀ part : List (List Char), leavesEntryOpen (part ++ [raw]) =
      ((part.isEmpty && (classify raw).opensEntry) ||
        (leavesEntryOpen part && !(classify raw).endsEntry)) := by
    intro part
    cases part with
    | nil => simp [leavesEntryOpen]
    | cons first body => simp [leavesEntryOpen, List.all_append, Bool.and_assoc]
  have hnil : ([] : List (List Char)) ∈ before.tails :=
    (List.mem_tails _ _).mpr (List.nil_suffix)
  rw [entryOpen, entryOpen, any_tails_concat rfl]
  simp only [hpart]
  cases hopens : (classify raw).opensEntry with
  | true =>
      rw [Bool.true_or, List.any_eq_true]
      exact ⟨[], hnil, rfl⟩
  | false =>
      cases (classify raw).endsEntry <;> simp

/-! ## Special blocks -/

/-- Opening less closing braces on the lines. -/
def braces (ls : List (List Char)) : Int :=
  (ls.map Value.balance).sum

/-- The lines are the first one of a special block and lines that are no boundaries, and after each
of them some brace of the block is open. -/
def leavesBlockOpen : List (List Char) → Bool
  | [] => false
  | first :: inner =>
    classify first == .special && inner.all (fun raw => !(classify raw).isBoundary) &&
      inner.inits.all fun part => 0 < braces (first :: part)

/-- A special block is open after the lines. -/
def blockOpen (before : List (List Char)) : Bool :=
  before.tails.any leavesBlockOpen

theorem braces_cons (raw : List Char) (ls : List (List Char)) :
    braces (raw :: ls) = Value.balance raw + braces ls := by
  simp [braces]

theorem braces_concat (ls : List (List Char)) (raw : List Char) :
    braces (ls ++ [raw]) = braces ls + Value.balance raw := by
  simp [braces]

/-- A block that is open stays open over a line that is no boundary and leaves some brace open; and a
line of its own may begin one. -/
theorem leavesBlockOpen_concat (part : List (List Char)) (raw : List Char) :
    leavesBlockOpen (part ++ [raw]) = true ↔ 0 < braces (part ++ [raw]) ∧
      (part = [] ∧ classify raw = .special ∨
        leavesBlockOpen part = true ∧ (classify raw).isBoundary = false) := by
  cases part with
  | nil => simp [leavesBlockOpen, and_comm]
  | cons first inner =>
      simp [leavesBlockOpen, List.inits_append]
      constructor
      · rintro ⟨⟨hspecial, hinner, hraw⟩, hparts, hwhole⟩
        exact ⟨hwhole, ⟨⟨hspecial, hinner⟩, hparts⟩, hraw⟩
      · rintro ⟨hwhole, ⟨⟨hspecial, hinner⟩, hparts⟩, hraw⟩
        exact ⟨⟨hspecial, hinner, hraw⟩, hparts, hwhole⟩

theorem braces_pos (h : leavesBlockOpen part = true) : 0 < braces part := by
  cases part with
  | nil => cases h
  | cons first inner =>
      rw [leavesBlockOpen, Bool.and_eq_true, List.all_eq_true] at h
      have hwhole : inner ∈ inner.inits := (List.mem_inits _ _).mpr List.prefix_rfl
      exact of_decide_eq_true (h.2 inner hwhole)

theorem blockOpen_iff : blockOpen before = true ↔ ∃ part, part <:+ before ∧
    leavesBlockOpen part = true := by
  simp [blockOpen, List.any_eq_true]

/-- After the lines, so many braces of a special block are open, and no block is if that is not more
than zero. -/
structure BlockAt (before : List (List Char)) (depth : Int) : Prop where
  open_iff : blockOpen before = true ↔ 0 < depth
  braces_eq : ∀ part, part <:+ before → leavesBlockOpen part = true → braces part = depth

theorem blockAt_of_closed {depth : Int} (h : blockOpen before = false) (hd : depth ≤ 0) :
    BlockAt before depth := by
  refine ⟨?_, ?_⟩
  · rw [h]
    constructor
    · intro hopen
      cases hopen
    · intro hpos
      omega
  · intro part hpart hopen
    rw [Bool.eq_false_iff] at h
    exact absurd (blockOpen_iff.mpr ⟨part, hpart, hopen⟩) h

/-- A line that neither begins a block nor goes on with one leaves none open. -/
theorem blockOpen_concat (hb : blockOpen before = true → (classify raw).isBoundary = true)
    (hs : classify raw ≠ .special) : blockOpen (before ++ [raw]) = false := by
  rw [Bool.eq_false_iff, Ne, blockOpen_iff]
  rintro ⟨part, hpart, hopen⟩
  rcases List.suffix_concat_iff.mp hpart with rfl | ⟨shorter, rfl, hshorter⟩
  · cases hopen
  · rcases (leavesBlockOpen_concat shorter raw).mp hopen with ⟨-, ⟨-, hspecial⟩ | ⟨hinner, hraw⟩⟩
    · exact hs hspecial
    · rw [hb (blockOpen_iff.mpr ⟨shorter, hshorter, hinner⟩)] at hraw
      cases hraw

/-- In a special block, a line that is not passed over is a boundary. -/
theorem BlockAt.isBoundary_of_read {depth : Int} (h : BlockAt before depth)
    (hreads : ¬(0 < depth && !(classify raw).isBoundary) = true) (hopen : blockOpen before = true) :
    (classify raw).isBoundary = true := by
  have hpos := h.open_iff.mp hopen
  simpa [hpos] using hreads

theorem skips_iff {depth : Int} :
    (0 < depth && !(classify raw).isBoundary) = true ↔
      0 < depth ∧ (classify raw).isBoundary = false := by
  rw [Bool.and_eq_true, Bool.not_eq_true', decide_eq_true_eq]

/-- A line inside a block adds its braces to those that are open. -/
theorem BlockAt.inner {depth : Int} (h : BlockAt before depth) (hd : 0 < depth)
    (hr : (classify raw).isBoundary = false) :
    BlockAt (before ++ [raw]) (depth + Value.balance raw) := by
  have hbraces : ∀ part, part <:+ before ++ [raw] → leavesBlockOpen part = true →
      braces part = depth + Value.balance raw := by
    intro part hpart hopen
    rcases List.suffix_concat_iff.mp hpart with rfl | ⟨shorter, rfl, hshorter⟩
    · cases hopen
    · rcases (leavesBlockOpen_concat shorter raw).mp hopen with ⟨-, ⟨-, hspecial⟩ | ⟨hinner, -⟩⟩
      · rw [hspecial] at hr
        cases hr
      · rw [braces_concat, h.braces_eq shorter hshorter hinner]
  refine ⟨?_, hbraces⟩
  constructor
  · intro hopen
    obtain ⟨part, hpart, hblock⟩ := blockOpen_iff.mp hopen
    exact hbraces part hpart hblock ▸ braces_pos hblock
  · intro hpos
    obtain ⟨part, hpart, hblock⟩ := blockOpen_iff.mp (h.open_iff.mpr hd)
    have hsum : braces (part ++ [raw]) = depth + Value.balance raw := by
      rw [braces_concat, h.braces_eq part hpart hblock]
    refine blockOpen_iff.mpr ⟨part ++ [raw], ?_, ?_⟩
    · exact List.suffix_concat_iff.mpr (.inr ⟨part, rfl, hpart⟩)
    · exact (leavesBlockOpen_concat part raw).mpr ⟨hsum ▸ hpos, .inr ⟨hblock, hr⟩⟩

/-- The first line of a block opens the braces that it leaves open. -/
theorem blockAt_special (hs : classify raw = .special) :
    BlockAt (before ++ [raw]) (max (Value.balance raw) 0) := by
  have hsingle : braces [raw] = Value.balance raw := by simp [braces]
  -- The block that is open can only be the one that begins here.
  have hpart : ∀ part, part <:+ before ++ [raw] → leavesBlockOpen part = true → part = [raw] := by
    intro part hpart hopen
    rcases List.suffix_concat_iff.mp hpart with rfl | ⟨shorter, rfl, -⟩
    · cases hopen
    · rcases (leavesBlockOpen_concat shorter raw).mp hopen with ⟨-, ⟨rfl, -⟩ | ⟨-, hraw⟩⟩
      · rfl
      · rw [hs] at hraw
        cases hraw
  refine ⟨?_, ?_⟩
  · constructor
    · intro hopen
      obtain ⟨part, hsuffix, hblock⟩ := blockOpen_iff.mp hopen
      have hpos := braces_pos hblock
      rw [hpart part hsuffix hblock, hsingle] at hpos
      omega
    · intro hpos
      refine blockOpen_iff.mpr ⟨[raw], ?_, ?_⟩
      · exact List.suffix_append before [raw]
      · refine (leavesBlockOpen_concat [] raw).mpr ⟨?_, .inl ⟨rfl, hs⟩⟩
        show 0 < braces [raw]
        omega
  · intro part hsuffix hopen
    have hpos := braces_pos hopen
    rw [hpart part hsuffix hopen, hsingle] at hpos ⊢
    omega

/-! ## The reader -/

/-- The reader is in an entry or skips a special block, as the lines leave one or the other open. -/
def Cursor.Follows (before : List (List Char)) (c : Cursor) : Prop :=
  match c.state with
  | .outside skipping => entryOpen before = false ∧ BlockAt before skipping
  | .inEntry _ => entryOpen before = true ∧ blockOpen before = false

theorem follows_start : Cursor.start.Follows [] :=
  ⟨rfl, blockAt_of_closed rfl (Int.le_refl 0)⟩

/-- A line that is read between entries, being a boundary if anything is open before it. -/
theorem follows_stepOutside (path : SourcePath) (line : Nat) (pending : List Directive)
    (he : entryOpen before = true → (classify raw).isBoundary = true)
    (hb : blockOpen before = true → (classify raw).isBoundary = true) :
    (stepOutside path line raw pending (classify raw)).1.Follows (before ++ [raw]) := by
  have hentry : entryOpen (before ++ [raw]) = (classify raw).opensEntry := by
    rw [entryOpen_concat]
    cases hopen : entryOpen before with
    | true => simp [LineKind.endsEntry, he hopen]
    | false => simp
  have hblock : classify raw ≠ .special → blockOpen (before ++ [raw]) = false :=
    blockOpen_concat hb
  cases hkind : classify raw with
  | header kind key rest =>
      rw [hkind] at hentry hblock
      rw [stepOutside, headerRest_eq]
      cases hcloses : closesItself rest with
      | true =>
          refine ⟨?_, blockAt_of_closed (hblock (by simp)) (Int.le_refl 0)⟩
          rw [hentry, LineKind.opensEntry, hcloses]
          rfl
      | false =>
          refine ⟨?_, hblock (by simp)⟩
          rw [hentry, LineKind.opensEntry, hcloses]
          rfl
  | special => exact ⟨hentry.trans (congrArg _ hkind), blockAt_special hkind⟩
  | _ =>
      rw [hkind] at hblock
      exact ⟨hentry.trans (congrArg _ hkind),
        blockAt_of_closed (hblock (by simp)) (Int.le_refl 0)⟩

/-- A line inside an entry that does not end it by its kind. -/
theorem follows_stepInside (o : OpenEntry) (line : Nat) (pending : List Directive)
    (he : entryOpen before = true) (hb : blockOpen before = false)
    (hr : (classify raw).isBoundary = false) :
    (stepInside o line raw pending (classify raw)).1.Follows (before ++ [raw]) := by
  have hentry : entryOpen (before ++ [raw]) = !(classify raw).endsEntry := by
    rw [entryOpen_concat, he]
    cases hkind : classify raw with
    | header kind key rest =>
        rw [hkind] at hr
        cases hr
    | _ => rfl
  have hblock : blockOpen (before ++ [raw]) = false := by
    refine blockOpen_concat ?_ ?_
    · intro hopen
      rw [hb] at hopen
      cases hopen
    · intro hspecial
      rw [hspecial] at hr
      cases hr
  cases hkind : classify raw with
  | close =>
      exact ⟨hentry.trans (congrArg (fun kind => !kind.endsEntry) hkind),
        blockAt_of_closed hblock (Int.le_refl 0)⟩
  | header | special | malformedHeader =>
      rw [hkind] at hr
      cases hr
  | _ => exact ⟨hentry.trans (congrArg (fun kind => !kind.endsEntry) hkind), hblock⟩

/-- One line: the reader stands where the lines with that one leave it. -/
theorem follows_step (h : c.Follows before) (path : SourcePath) (line : Nat) (raw : List Char) :
    (step path c line raw).1.Follows (before ++ [raw]) := by
  obtain ⟨state, pending⟩ := c
  cases state with
  | outside skipping =>
      obtain ⟨hentry, hblock⟩ := h
      simp only [step]
      split
      · next hskips =>
          obtain ⟨hpos, hr⟩ := skips_iff.mp hskips
          refine ⟨?_, hblock.inner hpos hr⟩
          rw [entryOpen_concat, hentry]
          cases hkind : classify raw with
          | header kind key rest =>
              rw [hkind] at hr
              cases hr
          | _ => rfl
      · next hreads =>
          refine follows_stepOutside path line pending ?_ (hblock.isBoundary_of_read hreads)
          intro hopen
          rw [hentry] at hopen
          cases hopen
  | inEntry o =>
      obtain ⟨hentry, hblock⟩ := h
      simp only [step]
      split
      · next hends => exact follows_stepOutside path line pending (fun _ => hends) fun _ => hends
      · next hstays =>
          exact follows_stepInside o line pending hentry hblock (by simpa using hstays)

end BibAudit.Bib
