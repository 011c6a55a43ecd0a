/-
# BibAudit.Proofs.Checks.Abbreviations — abbreviations are runs with two capitals.

A title is searched for a pattern: a capital, small letters and digits, capitals, and then letters and
digits, each part taking as much as the parts behind it leave it.  The search goes on behind each match.
Here what it finds is told without the pattern.  In every maximal run of letters and digits with two
capitals or more it finds one abbreviation, from the first capital to the end of the run, and it finds
nothing else.  The first one that has a character outside all braces is complained of.

Letters and digits are those of ASCII here, as in the pattern.
-/
import BibAudit.Checks.Title
import BibAudit.Proofs.Text.Trim
import BibAudit.Proofs.Value.Bytes
import BibAudit.Proofs.Value.Unprotected
import Mathlib.Data.List.TakeWhile
import Mathlib.Data.Nat.Init

namespace BibAudit.Checks

open Value

variable {t : Token} {g : Glyph} {gs front run back rest found : List Glyph}

/-! ## Classes of characters -/

/-- A letter or a digit. -/
def joinsRun (g : Glyph) : Bool :=
  g.char.isAlphanum

/-- A capital. -/
def isCapital (g : Glyph) : Bool :=
  g.char.isUpper

/-- A small letter or a digit. -/
def isSmall (g : Glyph) : Bool :=
  g.char.isDigit || g.char.isLower

theorem joinsRun_iff (g : Glyph) : joinsRun g = true ↔ isCapital g = true ∨ isSmall g = true := by
  unfold joinsRun isCapital isSmall Char.isAlphanum Char.isAlpha
  cases g.char.isUpper <;> cases g.char.isLower <;> cases g.char.isDigit <;> decide

theorem joinsRun_of_isCapital (h : isCapital g = true) : joinsRun g = true :=
  (joinsRun_iff g).mpr (.inl h)

theorem isSmall_iff (h : joinsRun g = true) : isSmall g = true ↔ isCapital g = false := by
  have hclass : ∀ c : Char, c.isAlphanum = true →
      ((c.isDigit || c.isLower) = true ↔ c.isUpper = false) := by
    intro c hc
    exact Text.forall_ascii (p := fun c => c.isAlphanum = true →
      ((c.isDigit || c.isLower) = true ↔ c.isUpper = false)) (by decide)
      (Text.toNat_lt_of_isAlphanum hc) hc
  exact hclass g.char h

/-! ## The pattern -/

/-- A pattern reads at the start of some glyphs: those that it takes, if it matches there. -/
abbrev GlyphPattern := List Glyph → Option (List Glyph)

/-- One character of a class, and what is to follow. -/
def one (p : Glyph → Bool) (next : GlyphPattern) : GlyphPattern
  | [] => none
  | g :: rest => if p g then (next rest).map (g :: ·) else none

/-- Characters of a class, as many as leave a match to what is to follow. -/
def many (p : Glyph → Bool) (next : GlyphPattern) : GlyphPattern
  | [] => next []
  | g :: rest =>
    if p g then ((many p next rest).map (g :: ·)).or (next (g :: rest)) else next (g :: rest)

/-- A capital, small letters and digits, a capital or more, and letters and digits. -/
def abbreviationPattern : GlyphPattern :=
  one isCapital <| many isSmall <| one isCapital <| many isCapital <| many joinsRun fun _ => some []

theorem many_joinsRun (gs : List Glyph) :
    many joinsRun (fun _ => some []) gs = some (gs.takeWhile joinsRun) := by
  induction gs with
  | nil => rfl
  | cons g rest ih =>
      rw [many, ih]
      cases h : joinsRun g with
      | true => rw [List.takeWhile_cons_of_pos h]; rfl
      | false => rw [List.takeWhile_cons_of_neg (by rw [h]; decide)]; rfl

/-- Capitals may as well be left to the letters and digits that follow. -/
theorem many_isCapital (gs : List Glyph) :
    many isCapital (many joinsRun fun _ => some []) gs = some (gs.takeWhile joinsRun) := by
  induction gs with
  | nil => rfl
  | cons g rest ih =>
      rw [many, ih, many_joinsRun]
      cases h : isCapital g with
      | true => rw [List.takeWhile_cons_of_pos (joinsRun_of_isCapital h)]; rfl
      | false => rfl

theorem one_isCapital (gs : List Glyph) :
    one isCapital (many isCapital (many joinsRun fun _ => some [])) gs =
      if gs.head?.any isCapital then some (gs.takeWhile joinsRun) else none := by
  cases gs with
  | nil => rfl
  | cons g rest =>
      rw [one, many_isCapital]
      cases h : isCapital g with
      | true =>
          rw [List.takeWhile_cons_of_pos (joinsRun_of_isCapital h), List.head?_cons, Option.any_some, h]
          rfl
      | false => rw [List.head?_cons, Option.any_some, h]; rfl

/-- A second capital can only be the first character that is no small letter and no digit: taking fewer
of these leaves a small letter or a digit in its place. -/
theorem many_isSmall (gs : List Glyph) :
    many isSmall (one isCapital (many isCapital (many joinsRun fun _ => some []))) gs =
      if (gs.dropWhile isSmall).head?.any isCapital then some (gs.takeWhile joinsRun) else none := by
  induction gs with
  | nil => rfl
  | cons g rest ih =>
      rw [many, ih, one_isCapital]
      cases h : isSmall g with
      | false => rw [List.dropWhile_cons_of_neg (by rw [h]; decide)]; rfl
      | true =>
          have hjoins : joinsRun g = true := (joinsRun_iff g).mpr (.inr h)
          have hcapital : isCapital g = false := (isSmall_iff hjoins).mp h
          rw [List.dropWhile_cons_of_pos h, List.takeWhile_cons_of_pos hjoins, List.head?_cons,
            Option.any_some, hcapital]
          cases (rest.dropWhile isSmall).head?.any isCapital <;> rfl

/-- What is taken for an abbreviation is the match of the pattern. -/
theorem abbreviationPattern_eq (gs : List Glyph) : abbreviationPattern gs = abbreviationAt gs := by
  cases gs with
  | nil => rfl
  | cons g rest =>
      unfold abbreviationPattern
      rw [one, many_isSmall, abbreviationAt]
      show _ = if (isCapital g && (rest.dropWhile isSmall).head?.any isCapital) = true then
        some (g :: rest.takeWhile joinsRun) else none
      cases isCapital g with
      | false => rfl
      | true => cases (rest.dropWhile isSmall).head?.any isCapital <;> rfl

/-- The matches of a pattern from the left: the search goes on behind a match, and behind a character at
which there is none. -/
def matchesOf (p : GlyphPattern) : List Glyph → List (List Glyph)
  | [] => []
  | g :: rest =>
    match p (g :: rest) with
    | none => matchesOf p rest
    | some found => found :: matchesOf p (rest.drop (found.length - 1))
termination_by gs => gs.length
decreasing_by
  · exact Nat.lt_add_one rest.length
  · rw [List.length_drop, List.length_cons]
    omega

theorem abbreviationsFrom_eq_matchesOf (skip : Nat) (gs : List Glyph) :
    abbreviationsFrom skip gs = matchesOf abbreviationPattern (gs.drop skip) := by
  induction gs generalizing skip with
  | nil => rw [abbreviationsFrom, List.drop_nil, matchesOf]
  | cons g rest ih =>
      cases skip with
      | succ skip => rw [abbreviationsFrom, List.drop_succ_cons, ih]
      | zero =>
          rw [abbreviationsFrom, List.drop_zero, matchesOf, abbreviationPattern_eq]
          cases abbreviationAt (g :: rest) with
          | none => exact ih 0
          | some found => exact congrArg (found :: ·) (ih (found.length - 1))

/-! ## Runs -/

/-- A maximal run of letters and digits, between two parts of a token. -/
structure IsRun (t : Token) (front run back : List Glyph) : Prop where
  cut : t = front ++ run ++ back
  joined : ∀ g ∈ run, joinsRun g = true
  before : ∀ g ∈ front.getLast?, joinsRun g = false
  behind : ∀ g ∈ back.head?, joinsRun g = false

/-- A run from its first capital on. -/
def stretch (run : List Glyph) : List Glyph :=
  run.dropWhile fun g => !isCapital g

/-- The abbreviations of a run: at most one. -/
def abbreviationOf (run : List Glyph) : List (List Glyph) :=
  if 2 ≤ run.countP isCapital then [stretch run] else []

theorem abbreviationsFrom_passed (passed rest : List Glyph) :
    abbreviationsFrom passed.length (passed ++ rest) = abbreviationsFrom 0 rest := by
  induction passed with
  | nil => rfl
  | cons g passed ih =>
      rw [List.length_cons, List.cons_append, abbreviationsFrom]
      exact ih

theorem abbreviationsFrom_none (h : abbreviationAt (g :: rest) = none) :
    abbreviationsFrom 0 (g :: rest) = abbreviationsFrom 0 rest := by
  rw [abbreviationsFrom, h]

theorem abbreviationAt_none (h : isCapital g = false) (rest : List Glyph) :
    abbreviationAt (g :: rest) = none := by
  unfold isCapital at h
  rw [abbreviationAt, h]
  rfl

/-- The search for a second capital finds one if there is one in the run. -/
theorem second_capital (hrun : ∀ g ∈ run, joinsRun g = true)
    (hback : ∀ g ∈ back.head?, joinsRun g = false) :
    ((run ++ back).dropWhile isSmall).head?.any isCapital = run.any isCapital := by
  induction run with
  | nil =>
      cases back with
      | nil => rfl
      | cons g rest =>
          have hclass := mt (joinsRun_iff g).mpr (by rw [hback g rfl]; decide)
          rw [not_or, Bool.not_eq_true, Bool.not_eq_true] at hclass
          rw [List.nil_append, List.dropWhile_cons_of_neg (by rw [hclass.2]; decide), List.head?_cons,
            Option.any_some, hclass.1]
          rfl
  | cons g run ih =>
      have hg := hrun g List.mem_cons_self
      have hrest := ih fun h hh => hrun h (List.mem_cons_of_mem g hh)
      rw [List.cons_append, List.any_cons]
      cases hsmall : isSmall g with
      | true =>
          rw [List.dropWhile_cons_of_pos hsmall, hrest, (isSmall_iff hg).mp hsmall, Bool.false_or]
      | false =>
          have hcapital : isCapital g = true := by
            rw [← Bool.not_eq_false, ← isSmall_iff hg, hsmall]
            decide
          rw [List.dropWhile_cons_of_neg (by rw [hsmall]; decide), List.head?_cons, Option.any_some,
            hcapital, Bool.true_or]

/-- In a run that starts with a capital the abbreviation is all of it, if there is a second one. -/
theorem abbreviationAt_run (hg : isCapital g = true) (hrun : ∀ g ∈ run, joinsRun g = true)
    (hback : ∀ g ∈ back.head?, joinsRun g = false) : abbreviationAt (g :: (run ++ back)) =
      if run.any isCapital then some (g :: run) else none := by
  rw [abbreviationAt]
  show (if (isCapital g && ((run ++ back).dropWhile isSmall).head?.any isCapital) = true then
    some (g :: (run ++ back).takeWhile joinsRun) else none) = _
  rw [hg, Bool.true_and, second_capital hrun hback, Text.takeWhile_run hrun hback]

/-- The search finds the abbreviation of a run, and goes on behind the run. -/
theorem abbreviationsFrom_run (hrun : ∀ g ∈ run, joinsRun g = true)
    (hback : ∀ g ∈ back.head?, joinsRun g = false) :
    abbreviationsFrom 0 (run ++ back) = abbreviationOf run ++ abbreviationsFrom 0 back := by
  induction run with
  | nil => rfl
  | cons g run ih =>
      have hrest := ih fun h hh => hrun h (List.mem_cons_of_mem g hh)
      have htail : ∀ h ∈ run, joinsRun h = true := fun h hh => hrun h (List.mem_cons_of_mem g hh)
      rw [List.cons_append]
      cases hg : isCapital g with
      | false =>
          rw [abbreviationsFrom_none (abbreviationAt_none hg _), hrest]
          unfold abbreviationOf stretch
          rw [List.countP_cons_of_neg (by rw [hg]; decide), List.dropWhile_cons_of_pos (by rw [hg]; rfl)]
      | true =>
          have hstart := abbreviationAt_run hg htail hback
          unfold abbreviationOf stretch
          rw [List.countP_cons_of_pos hg, List.dropWhile_cons_of_neg (by rw [hg]; decide)]
          cases hany : run.any isCapital with
          | true =>
              have hmore : 2 ≤ run.countP isCapital + 1 := by
                have hpos := List.countP_pos_iff.mpr (List.any_eq_true.mp hany)
                omega
              rw [hany] at hstart
              rw [abbreviationsFrom, hstart, if_pos hmore]
              show _ :: abbreviationsFrom run.length (run ++ back) = _
              rw [abbreviationsFrom_passed]
              rfl
          | false =>
              have hnone : run.countP isCapital = 0 := by
                rw [List.countP_eq_zero]
                exact fun h hh => by simpa using List.any_eq_false.mp hany h hh
              rw [hany] at hstart
              rw [abbreviationsFrom_none hstart, hrest]
              unfold abbreviationOf
              rw [hnone]
              rfl

theorem abbreviationsFrom_whole (hrun : ∀ g ∈ run, joinsRun g = true) :
    abbreviationsFrom 0 run = abbreviationOf run := by
  have hempty : ∀ g ∈ ([] : List Glyph).head?, joinsRun g = false := by
    intro g hg
    cases hg
  have hfound := abbreviationsFrom_run hrun hempty
  rw [List.append_nil] at hfound
  rw [hfound]
  exact List.append_nil _

theorem abbreviationsFrom_stop (hrun : ∀ g ∈ run, joinsRun g = true) (hg : joinsRun g = false)
    (rest : List Glyph) : abbreviationsFrom 0 (run ++ g :: rest) =
      abbreviationOf run ++ abbreviationsFrom 0 rest := by
  have hbehind : ∀ h ∈ (g :: rest).head?, joinsRun h = false := by
    rintro h ⟨⟩
    exact hg
  have hcapital : isCapital g = false := by
    rw [← Bool.not_eq_true]
    intro hcapital
    rw [joinsRun_of_isCapital hcapital] at hg
    cases hg
  rw [abbreviationsFrom_run hrun hbehind, abbreviationsFrom_none (abbreviationAt_none hcapital rest)]

/-! ## The runs of a token -/

/-- Glyphs are one run, or a run up to a character that ends it and what stands behind. -/
theorem run_or_stop (gs : List Glyph) : (∀ g ∈ gs, joinsRun g = true) ∨
    ∃ run g rest, gs = run ++ g :: rest ∧ (∀ h ∈ run, joinsRun h = true) ∧ joinsRun g = false := by
  induction gs with
  | nil => exact .inl fun g hg => by cases hg
  | cons g rest ih =>
      cases hg : joinsRun g with
      | false => exact .inr ⟨[], g, rest, rfl, List.forall_mem_nil _, hg⟩
      | true =>
          rcases ih with hrest | ⟨run, stop, more, rfl, hrun, hstop⟩
          · exact .inl (List.forall_mem_cons.mpr ⟨hg, hrest⟩)
          · exact .inr ⟨g :: run, stop, more, rfl, List.forall_mem_cons.mpr ⟨hg, hrun⟩, hstop⟩

/-- Where a run may start, the search may as well start anew. -/
theorem abbreviationsFrom_append (h : ∀ g ∈ front.getLast?, joinsRun g = false)
    (rest : List Glyph) :
    abbreviationsFrom 0 (front ++ rest) = abbreviationsFrom 0 front ++ abbreviationsFrom 0 rest := by
  induction hn : front.length using Nat.strong_induction_on generalizing front with
  | _ n ih =>
    subst hn
    rcases run_or_stop front with hjoined | ⟨run, g, more, rfl, hrun, hg⟩
    · rcases List.eq_nil_or_concat' front with rfl | ⟨less, last, rfl⟩
      · rfl
      · have hlast := h last (by rw [List.getLast?_concat]; rfl)
        rw [hjoined last (by simp)] at hlast
        cases hlast
    · have hmore : ∀ g ∈ more.getLast?, joinsRun g = false := by
        intro last hlast
        apply h
        rw [List.getLast?_append, List.getLast?_cons, Option.mem_def.mp hlast]
        rfl
      have hshort : more.length < (run ++ g :: more).length := by
        rw [List.length_append, List.length_cons]
        omega
      rw [List.append_assoc, List.cons_append, abbreviationsFrom_stop hrun hg,
        abbreviationsFrom_stop hrun hg, ih _ hshort hmore rfl, List.append_assoc]

/-- The search finds the abbreviations in front of a run, that of the run, and those behind it. -/
theorem IsRun.abbreviationsFrom_eq (h : IsRun t front run back) : abbreviationsFrom 0 t =
    abbreviationsFrom 0 front ++ (abbreviationOf run ++ abbreviationsFrom 0 back) := by
  rw [h.cut, List.append_assoc, abbreviationsFrom_append h.before,
    abbreviationsFrom_run h.joined h.behind]

theorem IsRun.behind_stop {rest : Token} (h : IsRun rest front run back) (hg : joinsRun g = false)
    (passed : List Glyph) : IsRun (passed ++ g :: rest) (passed ++ g :: front) run back := by
  refine ⟨?_, h.joined, ?_, h.behind⟩
  · rw [h.cut]
    simp
  · intro last hlast
    rw [List.getLast?_append, List.getLast?_cons] at hlast
    cases hfront : front.getLast? with
    | none =>
        rw [hfront] at hlast
        obtain rfl : g = last := Option.some.inj hlast
        exact hg
    | some d =>
        rw [hfront] at hlast
        obtain rfl : d = last := Option.some.inj hlast
        exact h.before d hfront

/-- The search finds nothing but the abbreviations of runs. -/
theorem exists_run (h : found ∈ abbreviationsFrom 0 t) :
    ∃ front run back, IsRun t front run back ∧ found ∈ abbreviationOf run := by
  induction hn : t.length using Nat.strong_induction_on generalizing t with
  | _ n ih =>
    subst hn
    rcases run_or_stop t with hjoined | ⟨run, g, rest, rfl, hrun, hg⟩
    · rw [abbreviationsFrom_whole hjoined] at h
      exact ⟨[], t, [], ⟨by simp, hjoined, by simp, by simp⟩, h⟩
    · rw [abbreviationsFrom_stop hrun hg] at h
      rcases List.mem_append.mp h with h | h
      · refine ⟨[], run, g :: rest, ⟨rfl, hrun, by simp, ?_⟩, h⟩
        rintro first ⟨⟩
        exact hg
      · have hshort : rest.length < (run ++ g :: rest).length := by
          rw [List.length_append, List.length_cons]
          omega
        obtain ⟨front, other, back, hother, hfound⟩ := ih _ hshort h rfl
        exact ⟨run ++ g :: front, other, back, hother.behind_stop hg run, hfound⟩

/-! ## Unprotected runs -/

/-- A maximal run with two capitals or more, and a character outside all braces from its first capital
on. -/
structure UnprotectedRun (t : Token) (front run back : List Glyph) : Prop
    extends IsRun t front run back where
  capitals : 2 ≤ run.countP isCapital
  exposed : ∃ g ∈ stretch run, g.depth = 0

theorem mem_abbreviationOf :
    found ∈ abbreviationOf run ↔ 2 ≤ run.countP isCapital ∧ found = stretch run := by
  unfold abbreviationOf
  split
  · next hmore => simp [hmore]
  · next hfew => simp [hfew]

theorem stretch_ne_nil (h : 2 ≤ run.countP isCapital) : stretch run ≠ [] := by
  intro hempty
  have hnone : run.countP isCapital = 0 := by
    rw [List.countP_eq_zero]
    intro g hg
    simpa using List.dropWhile_eq_nil_iff.mp hempty g hg
  omega

/-- The abbreviation has a character outside all braces. -/
def isExposed (found : List Glyph) : Bool :=
  leastDepth found == 0

theorem isExposed_stretch (h : 2 ≤ run.countP isCapital) :
    isExposed (stretch run) = true ↔ ∃ g ∈ stretch run, g.depth = 0 := by
  unfold isExposed
  rw [beq_iff_eq]
  exact leastDepth_eq_zero (stretch_ne_nil h)

/-- Some run of the token is unprotected. -/
def HasUnprotectedRun (t : Token) : Prop :=
  ∃ front run back, UnprotectedRun t front run back

theorem find?_exposed_eq_none :
    (abbreviationsFrom 0 t).find? isExposed = none ↔ ¬ HasUnprotectedRun t := by
  rw [List.find?_eq_none]
  constructor
  · rintro hnone ⟨front, run, back, h⟩
    have hmem : stretch run ∈ abbreviationsFrom 0 t := by
      have hrun : stretch run ∈ abbreviationOf run := mem_abbreviationOf.mpr ⟨h.capitals, rfl⟩
      rw [h.abbreviationsFrom_eq]
      simp [hrun]
    exact hnone _ hmem ((isExposed_stretch h.capitals).mpr h.exposed)
  · intro hnone found hfound hexposed
    obtain ⟨front, run, back, hrun, hmem⟩ := exists_run hfound
    obtain ⟨hcapitals, rfl⟩ := mem_abbreviationOf.mp hmem
    exact hnone ⟨front, run, back, hrun, hcapitals, (isExposed_stretch hcapitals).mp hexposed⟩

/-- A run is the first unprotected one of a token. -/
def IsFirstUnprotected (t : Token) (run : List Glyph) : Prop :=
  ∃ front back, UnprotectedRun t front run back ∧ ¬ HasUnprotectedRun front

/-- A run of the part in front of another run is a run of the token. -/
theorem UnprotectedRun.of_front {f r b : List Glyph} (h : UnprotectedRun t front run back)
    (hfront : UnprotectedRun front f r b) : UnprotectedRun t f r (b ++ run ++ back) := by
  refine ⟨⟨?_, hfront.joined, hfront.before, ?_⟩, hfront.capitals, hfront.exposed⟩
  · rw [h.cut, hfront.cut]
    simp only [List.append_assoc]
  · cases b with
    | cons g b => exact hfront.behind
    | nil =>
        -- the run would reach up to the other one, in front of which no run ends
        have hne : r ≠ [] := by
          rintro rfl
          exact absurd hfront.capitals (by decide)
        have hlast : r.getLast hne ∈ front.getLast? := by
          rw [hfront.cut, List.append_nil, List.getLast?_append_of_ne_nil f hne]
          exact List.getLast?_eq_some_getLast hne
        have hjoined := hfront.joined _ (List.getLast_mem hne)
        rw [h.before _ hlast] at hjoined
        cases hjoined

theorem HasUnprotectedRun.exists_first (h : HasUnprotectedRun t) :
    ∃ run, IsFirstUnprotected t run := by
  obtain ⟨front, run, back, h⟩ := h
  induction hn : front.length using Nat.strong_induction_on generalizing front run back with
  | _ n ih =>
    subst hn
    by_cases hearlier : HasUnprotectedRun front
    · obtain ⟨f, r, b, hfront⟩ := hearlier
      have hshort : f.length < front.length := by
        have hcapitals := hfront.capitals.trans List.countP_le_length
        rw [hfront.cut, List.length_append, List.length_append]
        omega
      exact ih _ hshort f r _ (h.of_front hfront) rfl
    · exact ⟨run, front, back, h, hearlier⟩

theorem unprotectedAbbreviation?_eq (t : Token) : unprotectedAbbreviation? t =
    ((abbreviationsFrom 0 t).find? isExposed).map Token.text := rfl

theorem unprotectedAbbreviation?_eq_find? (t : Token) : unprotectedAbbreviation? t =
    ((matchesOf abbreviationPattern t).find? fun m => leastDepth m = 0).map Token.text := by
  rw [unprotectedAbbreviation?_eq, abbreviationsFrom_eq_matchesOf, List.drop_zero]
  rfl

theorem unprotectedAbbreviation?_eq_none :
    unprotectedAbbreviation? t = none ↔ ¬ HasUnprotectedRun t := by
  rw [unprotectedAbbreviation?_eq, Option.map_eq_none_iff]
  exact find?_exposed_eq_none

/-- The first unprotected run gives the abbreviation that is named. -/
theorem IsFirstUnprotected.named (h : IsFirstUnprotected t run) :
    unprotectedAbbreviation? t = some (Token.text (stretch run)) := by
  obtain ⟨front, back, h, hfirst⟩ := h
  have hrun : abbreviationOf run = [stretch run] := if_pos h.capitals
  have hexposed := (isExposed_stretch h.capitals).mpr h.exposed
  rw [unprotectedAbbreviation?_eq, h.abbreviationsFrom_eq, List.find?_append,
    find?_exposed_eq_none.mpr hfirst, Option.none_or, hrun, List.singleton_append,
    List.find?_cons_of_pos hexposed]
  rfl

theorem unprotectedAbbreviation?_eq_some {text : String} : unprotectedAbbreviation? t = some text ↔
    ∃ run, IsFirstUnprotected t run ∧ text = Token.text (stretch run) := by
  constructor
  · intro hnamed
    have hhas : HasUnprotectedRun t := by
      by_contra hnone
      rw [unprotectedAbbreviation?_eq_none.mpr hnone] at hnamed
      cases hnamed
    obtain ⟨run, hfirst⟩ := hhas.exists_first
    rw [hfirst.named] at hnamed
    exact ⟨run, hfirst, (Option.some.inj hnamed).symm⟩
  · rintro ⟨run, hfirst, rfl⟩
    exact hfirst.named

/-! ## Complaints -/

/-- The complaint that names an abbreviation. -/
def abbreviationComplaint (e : Entry) (found : String) : Complaint :=
  e.complainAt .unquotedAbbreviations "title"
    s!"Unquoted abbreviation \"{found}\" in title, write \x7b{found}\x7d"

theorem unquotedAbbreviations_eq {e : Entry} {s : Scanned} (h : e.scanned? "title" = some s)
    (ctx : Context) : unquotedAbbreviations e ctx =
      .ok ((s.tokens.findSome? unprotectedAbbreviation?).map (abbreviationComplaint e)).toList := by
  unfold unquotedAbbreviations
  rw [h, Option.bind_some]
  cases s.tokens.findSome? unprotectedAbbreviation? <;> rfl

/-- The run that a title is blamed for: the first unprotected one of the first token with one. -/
def IsBlamed (tokens : List Token) (run : List Glyph) : Prop :=
  ∃ earlier t later, tokens = earlier ++ t :: later ∧ (∀ u ∈ earlier, ¬ HasUnprotectedRun u) ∧
    IsFirstUnprotected t run

theorem findSome?_unprotectedAbbreviation? {tokens : List Token} {text : String} :
    tokens.findSome? unprotectedAbbreviation? = some text ↔
      ∃ run, IsBlamed tokens run ∧ text = Token.text (stretch run) := by
  rw [List.findSome?_eq_some_iff]
  simp only [unprotectedAbbreviation?_eq_some, unprotectedAbbreviation?_eq_none]
  constructor
  · rintro ⟨earlier, t, later, hsplit, ⟨run, hfirst, rfl⟩, hearlier⟩
    exact ⟨run, ⟨earlier, t, later, hsplit, hearlier, hfirst⟩, rfl⟩
  · rintro ⟨run, ⟨earlier, t, later, hsplit, hearlier, hfirst⟩, rfl⟩
    exact ⟨earlier, t, later, hsplit, ⟨run, hfirst, rfl⟩, hearlier⟩

/-- One complaint is made of a title exactly if some token has a maximal run of letters and digits with
two capitals or more, and with a character outside all braces from its first capital on; otherwise there
is none.  The complaint names what stands from the first capital to the end in the first such run of the
first such token.  In each token it is the first match of the pattern of a capital, small letters and
digits, capitals, and letters and digits that has depth zero; the depth of a part of a token is that of
the bytes it takes. -/
theorem unquotedAbbreviations_exact {e : Entry} {s : Scanned} (h : e.scanned? "title" = some s)
    (ctx : Context) :
    ((∃ c, unquotedAbbreviations e ctx = .ok [c]) ↔ ∃ t ∈ s.tokens, HasUnprotectedRun t) ∧
      ((∀ t ∈ s.tokens, ¬ HasUnprotectedRun t) → unquotedAbbreviations e ctx = .ok []) ∧
      (∀ c, unquotedAbbreviations e ctx = .ok [c] ↔
        ∃ run, IsBlamed s.tokens run ∧ c = abbreviationComplaint e (Token.text (stretch run))) ∧
      (∀ t, unprotectedAbbreviation? t =
        ((matchesOf abbreviationPattern t).find? fun m => leastDepth m = 0).map Token.text) ∧
      (∀ front part back, Token.byteSpanDepth (front ++ part ++ back) (Token.byteLength front)
        (Token.byteLength front + Token.byteLength part) = leastDepth part) := by
  have hnone : s.tokens.findSome? unprotectedAbbreviation? = none ↔
      ∀ t ∈ s.tokens, ¬ HasUnprotectedRun t := by
    rw [List.findSome?_eq_none_iff]
    exact forall₂_congr fun t _ => unprotectedAbbreviation?_eq_none
  rw [unquotedAbbreviations_eq h]
  refine ⟨?_, ?_, ?_, unprotectedAbbreviation?_eq_find?, Token.byteSpanDepth_part⟩
  · rw [← not_iff_not]
    push Not
    rw [← hnone]
    cases s.tokens.findSome? unprotectedAbbreviation? with
    | none => exact ⟨fun _ => rfl, fun _ _ hc => by cases hc⟩
    | some found => exact ⟨fun hc => absurd rfl (hc _), fun hfound => by cases hfound⟩
  · intro hprotected
    rw [hnone.mpr hprotected]
    rfl
  · intro c
    rw [Except.ok.injEq, Option.toList_eq_singleton_iff, Option.map_eq_some_iff]
    simp only [findSome?_unprotectedAbbreviation?]
    constructor
    · rintro ⟨_, ⟨run, hblamed, rfl⟩, rfl⟩
      exact ⟨run, hblamed, rfl⟩
    · rintro ⟨run, hblamed, rfl⟩
      exact ⟨_, ⟨run, hblamed, rfl⟩, rfl⟩

/-- A title with two protected abbreviations, and one that braces protect only in part. -/
def partlyBracedTitle : String :=
  "{{DNA} in {NASA}-preX2Yz{ab}}"

def partlyBracedEntry : Entry :=
  (Entry.new "article" "k" ⟨"refs.bib"⟩ 1).insertField "title" partlyBracedTitle 2

/-- Characters at one depth. -/
def glyphsAt (depth : Nat) (text : String) : List Glyph :=
  text.toList.map fun c => ⟨c, depth⟩

theorem unquotedAbbreviations_exact_partly_braced :
    unquotedAbbreviations partlyBracedEntry ⟨.ofEntries [], none, none, false⟩ =
        .ok [abbreviationComplaint partlyBracedEntry "X2Yzab"] ∧
      ∃ t ∈ (scanField partlyBracedTitle.toList).tokens, HasUnprotectedRun t := by
  have hscanned : partlyBracedEntry.scanned? "title" = some (scanField partlyBracedTitle.toList) := rfl
  have htokens : (scanField partlyBracedTitle.toList).tokens = [glyphsAt 1 "DNA", glyphsAt 0 "in"] ++
      [glyphsAt 1 "NASA" ++ glyphsAt 0 "-" ++ (glyphsAt 0 "preX2Yz" ++ glyphsAt 1 "ab") ++ []] := by
    decide
  have hrun : UnprotectedRun
      (glyphsAt 1 "NASA" ++ glyphsAt 0 "-" ++ (glyphsAt 0 "preX2Yz" ++ glyphsAt 1 "ab") ++ [])
      (glyphsAt 1 "NASA" ++ glyphsAt 0 "-") (glyphsAt 0 "preX2Yz" ++ glyphsAt 1 "ab") [] :=
    ⟨⟨rfl, by decide, by decide, by decide⟩, by decide, by decide⟩
  have hearlier : ∀ u ∈ [glyphsAt 1 "DNA", glyphsAt 0 "in"], ¬ HasUnprotectedRun u := by
    simp only [← unprotectedAbbreviation?_eq_none]
    decide
  have hfront : ¬ HasUnprotectedRun (glyphsAt 1 "NASA" ++ glyphsAt 0 "-") := by
    rw [← unprotectedAbbreviation?_eq_none]
    decide
  obtain ⟨hiff, -, hnamed, -, -⟩ :=
    unquotedAbbreviations_exact hscanned ⟨.ofEntries [], none, none, false⟩
  have hblamed : IsBlamed (scanField partlyBracedTitle.toList).tokens
      (glyphsAt 0 "preX2Yz" ++ glyphsAt 1 "ab") :=
    ⟨_, _, _, htokens, hearlier, _, _, hrun, hfront⟩
  have hone := (hnamed _).mpr ⟨_, hblamed, rfl⟩
  exact ⟨hone, hiff.mp ⟨_, hone⟩⟩

end BibAudit.Checks
