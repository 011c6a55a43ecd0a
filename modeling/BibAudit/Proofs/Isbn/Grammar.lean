/-
# BibAudit.Proofs.Isbn.Grammar — what a number must look like.

Four views of a number are taken apart from each other: its length without hyphens and spaces, its
groups between hyphens, in which a space is a character, its characters, and its sum.  Together they
accept exactly the numbers that are written in groups of the lengths of their form, digit by digit, with
a sum that is divisible.  No space passes: the groups have room for the characters that count and for no
other.

Each problem is told by its own view, and none hides another but for the checksum, which is not judged
on characters that have no value.
-/
import BibAudit.Proofs.Groups
import BibAudit.Proofs.Isbn.Checksum
import BibAudit.Proofs.Text.Split

namespace BibAudit.Isbn

open Kind

variable {kind : Kind} {place : Nat} {cs number : List Char} {ds : List Nat} {c : Char} {n : Nat}

/-! ## Characters -/

/-- A character of a number that is no digit, nor an X in the last of ten places. -/
def Illegal (number : List Char) (c : Char) : Prop :=
  ∃ before after, number = before ++ c :: after ∧ c.isDigit = false ∧
    ¬ (after = [] ∧ number.length = 10 ∧ (c = 'X' ∨ c = 'x'))

/-- An X may stand in the last place of this form. -/
def takesX (kind : Option Kind) (c : Char) : Bool :=
  kind == some .isbn10 && (c == 'X' || c == 'x')

/-- A character is judged by itself and by whether it is the last one. -/
theorem badCharacters_cons (form : Option Kind) (c : Char) (rest : List Char) :
    badCharacters form (c :: rest) =
      (if c.isDigit || (rest.isEmpty && takesX form c) then [] else [c]) ++
        badCharacters form rest := by
  cases rest with
  | nil =>
      rw [badCharacters, badCharacters, List.append_nil]
      rfl
  | cons d rest =>
      rw [badCharacters]
      · cases c.isDigit <;> rfl
      · exact List.cons_ne_nil d rest

theorem mem_badCharacters_cons (form : Option Kind) {d : Char} {rest : List Char} :
    c ∈ badCharacters form (d :: rest) ↔
      (c = d ∧ d.isDigit = false ∧ ¬ (rest = [] ∧ takesX form d = true)) ∨
        c ∈ badCharacters form rest := by
  have hbad : ¬ (d.isDigit || (rest.isEmpty && takesX form d)) = true ↔
      d.isDigit = false ∧ ¬ (rest = [] ∧ takesX form d = true) := by
    rw [Bool.or_eq_true, Bool.and_eq_true, List.isEmpty_iff, not_or, Bool.not_eq_true]
  rw [badCharacters_cons, List.mem_append, List.mem_ite_nil_left, List.mem_singleton, hbad, and_comm]

theorem mem_badCharacters (form : Option Kind) : c ∈ badCharacters form cs ↔
    ∃ before after, cs = before ++ c :: after ∧ c.isDigit = false ∧
      ¬ (after = [] ∧ takesX form c = true) := by
  induction cs with
  | nil => simp [badCharacters]
  | cons d rest ih =>
      rw [mem_badCharacters_cons, ih]
      constructor
      · rintro (⟨rfl, hc⟩ | ⟨before, after, rfl, hc⟩)
        · exact ⟨[], rest, rfl, hc⟩
        · exact ⟨d :: before, after, rfl, hc⟩
      · rintro ⟨before, after, hcs, hc⟩
        cases before with
        | nil =>
            obtain ⟨rfl, rfl⟩ := List.cons.inj hcs
            exact .inl ⟨rfl, hc⟩
        | cons e before =>
            obtain ⟨rfl, rfl⟩ := List.cons.inj hcs
            exact .inr ⟨before, after, rfl, hc⟩

/-- The characters that do not belong into a number are those that are no digit and no last X. -/
theorem mem_badCharacters_iff_illegal :
    c ∈ badCharacters (Kind.ofLength? number.length) number ↔ Illegal number c := by
  have hx : takesX (Kind.ofLength? number.length) c = true ↔
      number.length = 10 ∧ (c = 'X' ∨ c = 'x') := by
    unfold takesX
    rw [Bool.and_eq_true, beq_iff_eq, ofLength?_eq_some, Bool.or_eq_true, beq_iff_eq, beq_iff_eq]
    rfl
  rw [mem_badCharacters, hx]
  rfl

theorem exists_decimalDigit?_iff : (∃ d, Text.decimalDigit? c = some d) ↔ c.isDigit = true := by
  simp [Text.decimalDigit?_eq_some]

theorem exists_lastDigit?_iff :
    (∃ d, lastDigit? c = some d) ↔ (c.isDigit || takesX (some .isbn10) c) = true := by
  show _ ↔ (c.isDigit || (c == 'X' || c == 'x')) = true
  unfold lastDigit?
  cases hx : c == 'X' || c == 'x' with
  | true => simp
  | false =>
      rw [Bool.or_false]
      exact exists_decimalDigit?_iff

/-- A character has a value at its place exactly if it belongs there. -/
theorem exists_value?_iff (hplace : place + (c :: cs).length = kind.size) :
    (∃ d, kind.value? place c = some d) ↔
      (c.isDigit || (cs.isEmpty && takesX (some kind) c)) = true := by
  rw [List.length_cons] at hplace
  cases kind with
  | isbn10 =>
      change place + (cs.length + 1) = 10 at hplace
      cases cs with
      | nil =>
          obtain rfl : place = 9 := by simpa using hplace
          rw [value?_last]
          exact exists_lastDigit?_iff
      | cons d rest =>
          rw [List.length_cons] at hplace
          rw [value?_of_ne (by omega), List.isEmpty_cons, Bool.false_and, Bool.or_false]
          exact exists_decimalDigit?_iff
  | isbn13 =>
      have hno : takesX (some isbn13) c = false := rfl
      rw [value?_isbn13, hno, Bool.and_false, Bool.or_false]
      exact exists_decimalDigit?_iff

/-- No character is bad exactly if each has a value. -/
theorem badCharacters_eq_nil (hplace : place + cs.length = kind.size) :
    badCharacters (some kind) cs = [] ↔ ∃ ds, kind.Spells place cs ds := by
  induction cs generalizing place with
  | nil => exact ⟨fun _ => ⟨[], .nil⟩, fun _ => rfl⟩
  | cons c rest ih =>
      have hstep : place + 1 + rest.length = kind.size := by
        rw [← hplace, List.length_cons]
        omega
      rw [badCharacters_cons, List.append_eq_nil_iff, ih hstep]
      constructor
      · rintro ⟨hc, ds, hds⟩
        split at hc
        · next hgood =>
            obtain ⟨d, hd⟩ := (exists_value?_iff hplace).mpr hgood
            exact ⟨d :: ds, .cons hd hds⟩
        · cases hc
      · rintro ⟨ds, hds⟩
        obtain ⟨d, es, rfl, hd, hes⟩ := spells_cons.mp hds
        exact ⟨if_pos ((exists_value?_iff hplace).mp ⟨d, hd⟩), es, hes⟩

/-! ## Groups -/

/-- The text is written in groups of the lengths of this form, with hyphens between them. -/
def Grouped (kind : Kind) (text : List Char) : Prop :=
  ∃ groups : List (List Char), text = ['-'].intercalate groups ∧ (∀ g ∈ groups, '-' ∉ g) ∧
    groups.map List.length = kind.groups

theorem formatValid_iff : formatValid cs kind = true ↔ Grouped kind (Text.trim cs) := by
  unfold formatValid groupLengths
  rw [beq_iff_eq]
  constructor
  · intro h
    exact ⟨_, (Text.intercalate_splitWhere '-' _).symm,
      fun g hg => Text.not_mem_of_mem_splitWhere hg, h⟩
  · rintro ⟨groups, htext, hhyphen, hlengths⟩
    have hne : groups ≠ [] := by
      rintro rfl
      cases kind <;> cases hlengths
    rw [htext, Text.splitWhere_intercalate hhyphen hne, hlengths]

theorem length_flatten_of_groups {groups : List (List Char)}
    (h : groups.map List.length = kind.groups) : groups.flatten.length = kind.size := by
  rw [List.length_flatten, h]
  cases kind <;> rfl

theorem Kind.Spells.all_count (h : kind.Spells place cs ds) : ∀ c ∈ cs, counts c = true := by
  induction h with
  | nil => exact fun c hc => absurd hc List.not_mem_nil
  | cons hc _ ih =>
      intro c hmem
      rcases List.mem_cons.mp hmem with rfl | hmem
      · exact (counts_of_lastDigit? (lastDigit?_of_value? hc)).2
      · exact ih c hmem

/-- A hyphen does not count. -/
theorem not_hyphen_mem_of_count {groups : List (List Char)}
    (h : ∀ c ∈ groups.flatten, counts c = true) : ∀ g ∈ groups, '-' ∉ g := by
  intro g hg hhyphen
  have hcount := h '-' (List.mem_flatten.mpr ⟨g, hg, hhyphen⟩)
  cases hcount

/-- A number as it should be written: its groups between hyphens have the lengths of its form, and all
its characters together check. -/
def WellWritten (kind : Kind) (text : List Char) : Prop :=
  ∃ groups : List (List Char), text = ['-'].intercalate groups ∧
    groups.map List.length = kind.groups ∧ kind.Checks groups.flatten

/-- The groups have room for the characters that count, and so for no space. -/
theorem wellWritten_iff : WellWritten kind (Text.trim cs) ↔
    (compact cs).length = kind.size ∧ kind.Checks (compact cs) ∧ Grouped kind (Text.trim cs) := by
  have hcompact : ∀ groups, Text.trim cs = ['-'].intercalate groups →
      compact cs = groups.flatten.filter counts := by
    intro groups htext
    show (Text.trim cs).filter counts = _
    rw [htext, Text.filter_intercalate rfl]
  constructor
  · rintro ⟨groups, htext, hlengths, hchecks⟩
    have hcounts : ∀ c ∈ groups.flatten, counts c = true := by
      obtain ⟨ds, hspells, -⟩ := hchecks
      exact hspells.all_count
    have hflat : compact cs = groups.flatten := by
      rw [hcompact groups htext, List.filter_eq_self.mpr hcounts]
    refine ⟨?_, ?_, groups, htext, not_hyphen_mem_of_count hcounts, hlengths⟩
    · rw [hflat, length_flatten_of_groups hlengths]
    · rwa [hflat]
  · rintro ⟨hsize, hchecks, groups, htext, -, hlengths⟩
    -- As many characters count as the groups have, so none is left out.
    have hflat : groups.flatten.filter counts = groups.flatten := by
      apply List.filter_sublist.eq_of_length
      rw [← hcompact groups htext, hsize, length_flatten_of_groups hlengths]
    exact ⟨groups, htext, hlengths, by rwa [← hflat, ← hcompact groups htext]⟩

/-! ## Problems -/

/-- The characters that a complaint about a number lists. -/
def listedCharacters (number : List Char) : List Char :=
  distinctChars (badCharacters (Kind.ofLength? number.length) number)

/-- The problem of the characters of a number, if there is one. -/
def characterProblems (number : List Char) : List Problem :=
  if (listedCharacters number).isEmpty then []
  else [.badCharacter (String.ofList (listedCharacters number))]

theorem mem_listedCharacters : c ∈ listedCharacters number ↔ Illegal number c := by
  unfold listedCharacters
  rw [mem_distinctChars, mem_badCharacters_iff_illegal]

/-- Where no character is illegal, nothing is listed. -/
theorem listedCharacters_isEmpty :
    (listedCharacters number).isEmpty = true ↔ ∀ c, ¬ Illegal number c := by
  rw [List.isEmpty_iff, List.eq_nil_iff_forall_not_mem]
  simp only [mem_listedCharacters]

theorem mem_characterProblems {p : Problem} : p ∈ characterProblems number ↔
    (∃ c, Illegal number c) ∧ p = .badCharacter (String.ofList (listedCharacters number)) := by
  unfold characterProblems
  cases hlisted : (listedCharacters number).isEmpty with
  | true =>
      have hnone := listedCharacters_isEmpty.mp hlisted
      simp [hnone]
  | false =>
      have hsome : ∃ c, Illegal number c := by
        apply Classical.not_forall_not.mp
        rw [← listedCharacters_isEmpty, hlisted]
        exact Bool.false_ne_true
      simp [hsome]

theorem validate_none (h : Kind.ofLength? (compact cs).length = none) :
    validate cs = characterProblems (compact cs) ++ [.wrongLength (compact cs).length] := by
  unfold validate characterProblems listedCharacters
  simp only [h]

theorem validate_some (h : (compact cs).length = kind.size) :
    validate cs = characterProblems (compact cs) ++
      (if (listedCharacters (compact cs)).isEmpty && !checksumValid cs then [.badChecksum kind]
        else []) ++
      (if formatValid cs kind then [] else [.badFormat kind]) := by
  unfold validate characterProblems listedCharacters
  simp only [ofLength?_eq_some.mpr h]

theorem checksumValid_iff_checks (h : (compact cs).length = kind.size) :
    checksumValid cs = true ↔ kind.Checks (compact cs) := by
  rw [checksumValid_iff]
  constructor
  · rintro ⟨other, hsize, hchecks⟩
    obtain rfl : other = kind := size_injective (hsize.symm.trans h)
    exact hchecks
  · exact fun hchecks => ⟨kind, h, hchecks⟩

/-- A number has neither length, or is of one form; this is what is found wrong with it then. -/
theorem mem_validate {p : Problem} : p ∈ validate cs ↔ p ∈ characterProblems (compact cs) ∨
    (((∀ kind : Kind, (compact cs).length ≠ kind.size) ∧ p = .wrongLength (compact cs).length) ∨
      ∃ kind : Kind, (compact cs).length = kind.size ∧
        ((p = .badChecksum kind ∧ (∀ c, ¬ Illegal (compact cs) c) ∧ ¬ kind.Checks (compact cs)) ∨
          (p = .badFormat kind ∧ ¬ Grouped kind (Text.trim cs)))) := by
  cases hform : Kind.ofLength? (compact cs).length with
  | none =>
      have hno : ∀ kind : Kind, (compact cs).length ≠ kind.size := by
        intro kind hsize
        rw [ofLength?_eq_some.mpr hsize] at hform
        cases hform
      rw [validate_none hform, List.mem_append, List.mem_singleton]
      simp [hno]
  | some kind =>
      have hsize := ofLength?_eq_some.mp hform
      have hfound : p ∈ (if (listedCharacters (compact cs)).isEmpty && !checksumValid cs then
          [Problem.badChecksum kind] else []) ↔ p = .badChecksum kind ∧
            (∀ c, ¬ Illegal (compact cs) c) ∧ ¬ kind.Checks (compact cs) := by
        rw [List.mem_ite_nil_right, List.mem_singleton, Bool.and_eq_true, listedCharacters_isEmpty,
          Bool.not_eq_true', ← Bool.not_eq_true, checksumValid_iff_checks hsize, and_comm]
      have hgroups : p ∈ (if formatValid cs kind then [] else [Problem.badFormat kind]) ↔
          p = .badFormat kind ∧ ¬ Grouped kind (Text.trim cs) := by
        rw [List.mem_ite_nil_left, List.mem_singleton, formatValid_iff, and_comm]
      rw [validate_some hsize, List.mem_append, List.mem_append, hfound, hgroups, or_assoc]
      -- There is no second form of this length.
      apply or_congr_right
      constructor
      · exact fun h => .inr ⟨kind, hsize, h⟩
      · rintro (⟨hno, -⟩ | ⟨other, hother, h⟩)
        · exact absurd hsize (hno kind)
        · obtain rfl : other = kind := size_injective (hother.symm.trans hsize)
          exact h

/-- Where the length is right, no character is illegal exactly if each has a value at its place. -/
theorem forall_not_illegal_iff (h : number.length = kind.size) :
    (∀ c, ¬ Illegal number c) ↔ ∃ ds, kind.Spells 0 number ds := by
  have hplace : 0 + number.length = kind.size := by omega
  rw [← badCharacters_eq_nil hplace, List.eq_nil_iff_forall_not_mem,
    ← ofLength?_eq_some.mpr h]
  simp only [mem_badCharacters_iff_illegal]

/-- Nothing is wrong with a number exactly if it is well written in one of the forms. -/
theorem validate_eq_nil_iff : validate cs = [] ↔ ∃ kind, WellWritten kind (Text.trim cs) := by
  rw [List.eq_nil_iff_forall_not_mem]
  constructor
  · intro hnone
    -- Each of the four views would have told its problem.
    have hlegal : ∀ c, ¬ Illegal (compact cs) c := fun c hc =>
      hnone _ (mem_validate.mpr (.inl (mem_characterProblems.mpr ⟨⟨c, hc⟩, rfl⟩)))
    obtain ⟨kind, hsize⟩ : ∃ kind : Kind, (compact cs).length = kind.size := by
      apply Classical.not_forall_not.mp
      exact fun hno => hnone _ (mem_validate.mpr (.inr (.inl ⟨hno, rfl⟩)))
    have hchecks : kind.Checks (compact cs) := by
      apply Classical.not_not.mp
      exact fun hno => hnone _ (mem_validate.mpr (.inr (.inr ⟨kind, hsize, .inl ⟨rfl, hlegal, hno⟩⟩)))
    have hgrouped : Grouped kind (Text.trim cs) := by
      apply Classical.not_not.mp
      exact fun hno => hnone _ (mem_validate.mpr (.inr (.inr ⟨kind, hsize, .inr ⟨rfl, hno⟩⟩)))
    exact ⟨kind, wellWritten_iff.mpr ⟨hsize, hchecks, hgrouped⟩⟩
  · rintro ⟨kind, hwell⟩ p hp
    obtain ⟨hsize, hchecks, hgrouped⟩ := wellWritten_iff.mp hwell
    rcases mem_validate.mp hp with hcharacter | ⟨hno, -⟩ | ⟨other, hother, hproblem⟩
    · obtain ⟨⟨c, hc⟩, -⟩ := mem_characterProblems.mp hcharacter
      obtain ⟨ds, hspells, -⟩ := hchecks
      exact (forall_not_illegal_iff hsize).mpr ⟨ds, hspells⟩ c hc
    · exact hno kind hsize
    · obtain rfl : other = kind := size_injective (hother.symm.trans hsize)
      rcases hproblem with ⟨-, -, hsum⟩ | ⟨-, hgroups⟩
      · exact hsum hchecks
      · exact hgroups hgrouped

/-- The complaint about characters lists exactly the illegal ones, each once and in order. -/
theorem badCharacter_mem_validate {listed : String} : .badCharacter listed ∈ validate cs ↔
    (∃ c, Illegal (compact cs) c) ∧ Increasing listed.toList ∧
      ∀ c, c ∈ listed.toList ↔ Illegal (compact cs) c := by
  have hproblem : .badCharacter listed ∈ validate cs ↔
      .badCharacter listed ∈ characterProblems (compact cs) := by
    rw [mem_validate]
    simp
  rw [hproblem, mem_characterProblems, Problem.badCharacter.injEq]
  apply and_congr_right
  intro _
  constructor
  · rintro rfl
    rw [String.toList_ofList]
    exact ⟨increasing_distinctChars _, fun c => mem_listedCharacters⟩
  · rintro ⟨hincreasing, hmem⟩
    rw [← String.ofList_toList (s := listed)]
    congr 1
    apply hincreasing.eq_of_mem_iff (increasing_distinctChars _)
    intro c
    rw [hmem, ← mem_listedCharacters]
    rfl

theorem not_checks_iff (h : ∀ c, ¬ Illegal number c) (hsize : number.length = kind.size) :
    ¬ kind.Checks number ↔
      ∃ ds, kind.Spells 0 number ds ∧ ¬ kind.modulus ∣ kind.weighted 0 ds := by
  obtain ⟨ds, hspells⟩ := (forall_not_illegal_iff hsize).mp h
  constructor
  · exact fun hno => ⟨ds, hspells, fun hsum => hno ⟨ds, hspells, hsum⟩⟩
  · rintro ⟨es, hes, hsum⟩ ⟨ds, hds, hdivides⟩
    rw [hds.unique hes] at hdivides
    exact hsum hdivides

theorem wrongLength_mem_validate : .wrongLength n ∈ validate cs ↔
    n = (compact cs).length ∧ (compact cs).length ≠ 10 ∧ (compact cs).length ≠ 13 := by
  have hforms : (∀ kind : Kind, (compact cs).length ≠ kind.size) ↔
      (compact cs).length ≠ 10 ∧ (compact cs).length ≠ 13 := by
    constructor
    · exact fun h => ⟨h .isbn10, h .isbn13⟩
    · rintro ⟨hshort, hlong⟩ (_ | _)
      · exact hshort
      · exact hlong
  rw [mem_validate, mem_characterProblems, ← hforms]
  simp [and_comm]

theorem badFormat_mem_validate : .badFormat kind ∈ validate cs ↔
    (compact cs).length = kind.size ∧ ¬ Grouped kind (Text.trim cs) := by
  rw [mem_validate, mem_characterProblems]
  simp

theorem badChecksum_mem_validate : .badChecksum kind ∈ validate cs ↔
    (compact cs).length = kind.size ∧ (∀ c, ¬ Illegal (compact cs) c) ∧
      ∃ ds, kind.Spells 0 (compact cs) ds ∧ ¬ kind.modulus ∣ kind.weighted 0 ds := by
  rw [mem_validate, mem_characterProblems]
  simp only [reduceCtorEq, and_false, false_or, false_and, or_false, Problem.badChecksum.injEq]
  constructor
  · rintro ⟨_, hsize, rfl, hlegal, hno⟩
    exact ⟨hsize, hlegal, (not_checks_iff hlegal hsize).mp hno⟩
  · rintro ⟨hsize, hlegal, hsum⟩
    exact ⟨kind, hsize, rfl, hlegal, (not_checks_iff hlegal hsize).mpr hsum⟩

/-- Nothing is wrong with exactly those numbers that are well written.  With any other, every problem is
told by itself: the characters that do not belong there, all of them and each once; the length without
hyphens and spaces; the groups, be the sum right or wrong; and the sum, wherever it can be taken. -/
theorem validate_exact (cs : List Char) :
    (validate cs = [] ↔ ∃ kind, WellWritten kind (Text.trim cs)) ∧
      ((∃ listed, .badCharacter listed ∈ validate cs) ↔ ∃ c, Illegal (compact cs) c) ∧
      (∀ listed, .badCharacter listed ∈ validate cs ↔ (∃ c, Illegal (compact cs) c) ∧
        Increasing listed.toList ∧ ∀ c, c ∈ listed.toList ↔ Illegal (compact cs) c) ∧
      (∀ n, .wrongLength n ∈ validate cs ↔
        n = (compact cs).length ∧ (compact cs).length ≠ 10 ∧ (compact cs).length ≠ 13) ∧
      (∀ kind, .badFormat kind ∈ validate cs ↔
        (compact cs).length = kind.size ∧ ¬ Grouped kind (Text.trim cs)) ∧
      (∀ kind, .badChecksum kind ∈ validate cs ↔
        (compact cs).length = kind.size ∧ (∀ c, ¬ Illegal (compact cs) c) ∧
          ∃ ds, kind.Spells 0 (compact cs) ds ∧ ¬ kind.modulus ∣ kind.weighted 0 ds) := by
  refine ⟨validate_eq_nil_iff, ?_, fun _ => badCharacter_mem_validate,
    fun _ => wrongLength_mem_validate, fun _ => badFormat_mem_validate,
    fun _ => badChecksum_mem_validate⟩
  constructor
  · rintro ⟨listed, hlisted⟩
    exact (badCharacter_mem_validate.mp hlisted).1
  · intro hsome
    exact ⟨_, mem_validate.mpr (.inl (mem_characterProblems.mpr ⟨hsome, rfl⟩))⟩

end BibAudit.Isbn
