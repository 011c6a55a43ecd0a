/-
# BibAudit.Proofs.Isbn.Conversion — the long form of a short number.

A short number becomes a long one: 978 goes in front, the groups stay, and the last character, which
checks the short number, gives way to a digit that checks the long one.  What stands between the groups,
hyphens or spaces, one or several, is kept as hyphens; what follows the last character is dropped.

The digits that are summed up for the new check digit are those that count in the long number, wherever
the hyphens stand, so it is valid; and a number that was well written stays so.
-/
import BibAudit.Checks.Publication
import BibAudit.Proofs.Isbn.Grammar

namespace BibAudit.Isbn

open Kind

variable {kind : Kind} {place : Nat} {cs front nine body : List Char} {us : List Nat}
  {c check digit : Char} {p : Problem}

/-! ## What becomes of a text -/

/-- A space between two groups becomes a hyphen. -/
def toHyphen (c : Char) : Char :=
  if c == ' ' then '-' else c

/-- A number with hyphens for its spaces, and none at the end. -/
def hyphenated (cs : List Char) : List Char :=
  Text.dropEndWhile (· == '-') ((Text.trim cs).map toHyphen)

/-- 978 in front of a number, behind it a hyphen if there is any, and another last character. -/
def lengthened (cs : List Char) (check : Char) : List Char :=
  ['9', '7', '8'] ++ (if '-' ∈ hyphenated cs then ['-'] else []) ++ (hyphenated cs).dropLast ++ [check]

theorem separated_append (body : List Char) :
    (if body.getLast? == some '-' then body.dropLast else body) ++
      (if body.getLast? == some '-' then ['-'] else []) = body := by
  split
  · next h =>
      obtain ⟨front, rfl⟩ := List.getLast?_eq_some_iff.mp (beq_iff_eq.mp h)
      rw [List.dropLast_concat]
  · exact List.append_nil body

theorem filterMap_separated (body : List Char) :
    (if body.getLast? == some '-' then body.dropLast else body).filterMap Text.decimalDigit? =
      body.filterMap Text.decimalDigit? := by
  split
  · next h =>
      obtain ⟨front, rfl⟩ := List.getLast?_eq_some_iff.mp (beq_iff_eq.mp h)
      rw [List.dropLast_concat, List.filterMap_append]
      exact (List.append_nil _).symm
  · rfl

/-- The hyphen before the last character is taken away for the sum, to which it adds nothing, and put
back. -/
theorem longForm_trim (cs : List Char) : longForm (Text.trim cs) = lengthened cs
    (Nat.digitChar (checkDigit13
      ([9, 7, 8] ++ (hyphenated cs).dropLast.filterMap Text.decimalDigit?))) := by
  have hhyphenated : Text.dropEndWhile (· == '-')
      ((Text.trim cs).map fun c => if c == ' ' then '-' else c) = hyphenated cs := rfl
  unfold longForm lengthened
  simp only [hhyphenated, filterMap_separated, List.contains_iff_mem]
  congr 1
  rw [List.append_assoc, separated_append]

theorem counts_toHyphen (c : Char) : counts (toHyphen c) = counts c := by
  unfold toHyphen
  split
  · next h =>
      rw [beq_iff_eq.mp h]
      rfl
  · rfl

theorem toHyphen_of_counts (h : counts c = true) : toHyphen c = c := by
  apply if_neg
  intro hspace
  rw [beq_iff_eq.mp hspace] at h
  cases h

theorem toHyphen_of_not_counts (h : ¬ counts c = true) : toHyphen c = '-' := by
  unfold toHyphen
  split
  · rfl
  · next hspace => simpa [counts, hspace] using h

theorem ne_hyphen_of_counts (h : counts c = true) : (c == '-') = false := by
  cases hhyphen : c == '-' with
  | true => simp [counts, hhyphen] at h
  | false => rfl

/-- The characters that count do not change. -/
theorem filter_map_toHyphen (cs : List Char) :
    (cs.map toHyphen).filter counts = cs.filter counts := by
  induction cs with
  | nil => rfl
  | cons c rest ih =>
      rw [List.map_cons, List.filter_cons, List.filter_cons, counts_toHyphen, ih]
      split
      · next h => rw [toHyphen_of_counts h]
      · rfl

/-- What follows the last character that counts is dropped, and what counts before it stays. -/
theorem exists_hyphenated (h : compact cs = front ++ [c]) :
    ∃ body, hyphenated cs = body ++ [c] ∧ body.filter counts = front := by
  -- Cut the text in front of the last character that counts, and behind it.
  change (Text.trim cs).filter counts = front ++ [c] at h
  obtain ⟨first, last, htrim, hfirst, hlast⟩ := List.filter_eq_append_iff.mp h
  obtain ⟨before, after, rfl, hbefore, hc, hafter⟩ := List.filter_eq_cons_iff.mp hlast
  refine ⟨(first ++ before).map toHyphen, ?_, ?_⟩
  · -- Behind it stand hyphens and spaces only, so all of it is hyphens now.
    have hdropped : ∀ d ∈ after.map toHyphen, (d == '-') = true := by
      intro d hd
      obtain ⟨e, he, rfl⟩ := List.mem_map.mp hd
      rw [toHyphen_of_not_counts (List.filter_eq_nil_iff.mp hafter e he)]
      rfl
    unfold hyphenated
    rw [htrim, ← List.append_assoc, List.map_append, List.map_cons, toHyphen_of_counts hc]
    rw [Text.dropEndWhile_append_cons (p := (· == '-')) (ne_hyphen_of_counts hc),
      Text.dropEndWhile_eq_nil hdropped]
  · rw [filter_map_toHyphen, List.filter_append, hfirst, List.filter_eq_nil_iff.mpr hbefore,
      List.append_nil]

theorem isBlank_and_counts_of_isDigit (h : check.isDigit = true) :
    Text.isBlank check = false ∧ counts check = true :=
  counts_of_lastDigit? (lastDigit?_of_decimalDigit? (Text.decimalDigit?_eq_some.mpr ⟨h, rfl⟩))

theorem trim_lengthened (cs : List Char) (hcheck : check.isDigit = true) :
    Text.trim (lengthened cs check) = lengthened cs check := by
  have htight : Text.Tight (lengthened cs check) := by
    unfold lengthened
    exact Text.tight_between (a := '9') rfl (isBlank_and_counts_of_isDigit hcheck).1 _
  exact htight.trim_eq

/-! ## The new check digit -/

/-- Before the last place the short form takes digits only, and they have their values at every place of
the long form. -/
theorem spells_isbn13 (h : isbn10.Spells place cs us) (hplace : place + cs.length ≤ 9) :
    ∀ other, isbn13.Spells other cs us := by
  induction h with
  | nil => exact fun other => .nil
  | @cons place c d rest ds hc _ ih =>
      intro other
      rw [List.length_cons] at hplace
      rw [value?_of_ne (by omega)] at hc
      exact .cons (value?_of_decimalDigit? hc) (ih (by omega) (other + 1))

theorem Kind.Spells.filterMap_eq (h : isbn13.Spells place cs us) :
    cs.filterMap Text.decimalDigit? = us := by
  induction h with
  | nil => rfl
  | cons hc _ ih =>
      rw [value?_isbn13] at hc
      rw [List.filterMap_cons_some hc, ih]

theorem Kind.Spells.all_digits (h : isbn13.Spells place cs us) : ∀ c ∈ cs, c.isDigit = true := by
  induction h with
  | nil => exact fun c hc => absurd hc List.not_mem_nil
  | cons hc _ ih =>
      rw [value?_isbn13] at hc
      rintro c (_ | ⟨_, hmem⟩)
      · exact (Text.decimalDigit?_eq_some.mp hc).1
      · exact ih c hmem

/-- Hyphens have no value. -/
theorem filterMap_filter_counts (cs : List Char) :
    (cs.filter counts).filterMap Text.decimalDigit? = cs.filterMap Text.decimalDigit? := by
  rw [List.filterMap_filter]
  congr 1
  funext c
  split
  · rfl
  · next h =>
      cases hc : Text.decimalDigit? c with
      | none => rfl
      | some d => exact absurd (counts_of_lastDigit? (lastDigit?_of_decimalDigit? hc)).2 h

theorem checkDigit13_lt (leading : List Nat) : checkDigit13 leading < 10 :=
  Nat.mod_lt _ (by omega)

/-- The last of thirteen places counts once, so what is missing there is what the sum lacks. -/
theorem modulus_dvd_checkDigit13 {leading : List Nat} (h : leading.length = 12) :
    isbn13.modulus ∣ isbn13.weighted 0 (leading ++ [checkDigit13 leading]) := by
  have hweight : isbn13.weight 12 = 1 := rfl
  rw [weighted_append, Nat.zero_add, h, weighted, weighted, hweight, ← weight13_eq rfl]
  apply Nat.dvd_of_mod_eq_zero
  show (weight13 leading + (1 * ((10 - weight13 leading % 10) % 10) + 0)) % 10 = 0
  omega

/-- With the new check digit the long number checks. -/
theorem checks_checkDigit13 (hnine : isbn10.Spells 0 nine us) (hlength : nine.length = 9) :
    isbn13.Checks (['9', '7', '8'] ++ nine ++
      [Nat.digitChar (checkDigit13 ([9, 7, 8] ++ us))]) := by
  have hleading : ([9, 7, 8] ++ us).length = 12 := by
    rw [List.length_append, hnine.length_eq, hlength]
    rfl
  refine ⟨[9, 7, 8] ++ us ++ [checkDigit13 ([9, 7, 8] ++ us)], ?_, modulus_dvd_checkDigit13 hleading⟩
  have hfront : isbn13.Spells 0 ['9', '7', '8'] [9, 7, 8] :=
    .cons rfl (.cons rfl (.cons rfl .nil))
  have hcheck := Text.decimalDigit?_digitChar (checkDigit13_lt ([9, 7, 8] ++ us))
  apply spells_append.mpr
  -- 978, the nine digits at their new places, and the check digit.
  refine ⟨_, _, rfl, spells_append.mpr ⟨_, _, rfl, hfront, ?_⟩, ?_⟩
  · exact spells_isbn13 hnine (by omega) _
  · exact .cons (value?_of_decimalDigit? hcheck) .nil

/-! ## A short number in parts -/

/-- The digit that checks a long number behind 978 and these nine digits. -/
def checkChar (us : List Nat) : Char :=
  Nat.digitChar (checkDigit13 ([9, 7, 8] ++ us))

theorem decimalDigit?_checkChar (us : List Nat) :
    Text.decimalDigit? (checkChar us) = some (checkDigit13 ([9, 7, 8] ++ us)) :=
  Text.decimalDigit?_digitChar (checkDigit13_lt _)

theorem isDigit_checkChar (us : List Nat) : (checkChar us).isDigit = true :=
  (Text.decimalDigit?_eq_some.mp (decimalDigit?_checkChar us)).1

/-- A short number whose characters all have values: nine digits `nine` of the values `us` and the last
character `c`, before which `body` stands in the text. -/
structure InParts (cs body nine : List Char) (us : List Nat) (c : Char) : Prop where
  compact_eq : compact cs = nine ++ [c]
  length_eq : nine.length = 9
  spells : isbn10.Spells 0 nine us
  hyphenated_eq : hyphenated cs = body ++ [c]
  counted : body.filter counts = nine

theorem exists_inParts (hlength : (compact cs).length = 10) (hlegal : ∀ c, ¬ Illegal (compact cs) c) :
    ∃ body nine us c, InParts cs body nine us c := by
  have hne : compact cs ≠ [] := by
    intro hnil
    rw [hnil] at hlength
    cases hlength
  have hcompact := (List.dropLast_concat_getLast hne).symm
  generalize (compact cs).dropLast = nine, (compact cs).getLast hne = c at hcompact
  obtain ⟨body, hhyphenated, hcounted⟩ := exists_hyphenated hcompact
  have hsize : (compact cs).length = isbn10.size := hlength
  obtain ⟨ds, hspells⟩ := (forall_not_illegal_iff hsize).mp hlegal
  rw [hcompact] at hspells hlength
  obtain ⟨us, vs, -, hus, -⟩ := spells_append.mp hspells
  rw [List.length_append, List.length_singleton] at hlength
  exact ⟨body, nine, us, c, hcompact, by omega, hus, hhyphenated, hcounted⟩

namespace InParts

theorem spells_long (h : InParts cs body nine us c) (other : Nat) : isbn13.Spells other nine us :=
  spells_isbn13 h.spells (by rw [h.length_eq]) other

theorem take_compact (h : InParts cs body nine us c) : (compact cs).take 9 = nine := by
  rw [h.compact_eq, ← h.length_eq, List.take_left]

/-- The long form is the lengthened number with the digit that checks it. -/
theorem longForm_eq (h : InParts cs body nine us c) :
    longForm (Text.trim cs) = lengthened cs (checkChar us) := by
  rw [longForm_trim, h.hyphenated_eq, List.dropLast_concat, ← filterMap_filter_counts, h.counted,
    (h.spells_long 0).filterMap_eq]
  rfl

/-- Of a lengthened number 978 counts, what counted before the last character, and the new one. -/
theorem compact_lengthened (h : InParts cs body nine us c) (hcheck : check.isDigit = true) :
    compact (lengthened cs check) = ['9', '7', '8'] ++ nine ++ [check] := by
  have hcounts := (isBlank_and_counts_of_isDigit hcheck).2
  have hhyphen : (if '-' ∈ hyphenated cs then ['-'] else []).filter counts = [] := by
    split <;> rfl
  show (Text.trim (lengthened cs check)).filter counts = _
  rw [trim_lengthened cs hcheck]
  unfold lengthened
  rw [h.hyphenated_eq, List.dropLast_concat, ← h.hyphenated_eq, List.filter_append,
    List.filter_append, List.filter_append, hhyphen, h.counted, List.filter_cons_of_pos hcounts]
  rfl

theorem length_lengthened (h : InParts cs body nine us c) (hcheck : check.isDigit = true) :
    (compact (lengthened cs check)).length = isbn13.size := by
  rw [h.compact_lengthened hcheck, List.length_append, List.length_append, h.length_eq]
  rfl

/-- One digit only makes the checksum of the lengthened number valid: no other value at the last place
leaves the sum divisible. -/
theorem checksumValid_iff (h : InParts cs body nine us c) (hdigit : digit.isDigit = true) :
    checksumValid (lengthened cs digit) = true ↔ digit = checkChar us := by
  have hchecks := checks_checkDigit13 h.spells h.length_eq
  rw [checksumValid_iff_checks (h.length_lengthened hdigit), h.compact_lengthened hdigit]
  constructor
  · intro hdivides
    -- Both numbers check and agree up to the last place.
    have hplace : (['9', '7', '8'] ++ nine).length < isbn13.size := by
      rw [List.length_append, h.length_eq]
      decide
    have hvalue := value?_eq_of_checks hplace hdivides hchecks
    rw [value?_isbn13, value?_isbn13] at hvalue
    exact Text.eq_of_decimalDigit? (hvalue.trans (decimalDigit?_checkChar us))
      (decimalDigit?_checkChar us)
  · rintro rfl
    exact hchecks

end InParts

/-! ## Well written numbers -/

/-- A text without spaces that ends in another character than a hyphen stays as it is. -/
theorem hyphenated_eq (htrim : Text.trim cs = body ++ [c])
    (hkept : ∀ d ∈ body ++ [c], d = '-' ∨ counts d = true) (hlast : counts c = true) :
    hyphenated cs = body ++ [c] := by
  have hmap : (body ++ [c]).map toHyphen = (body ++ [c]).map id := by
    apply List.map_congr_left
    intro d hd
    rcases hkept d hd with rfl | hcounts
    · rfl
    · exact toHyphen_of_counts hcounts
  unfold hyphenated
  rw [htrim, hmap, List.map_id]
  rw [Text.dropEndWhile_append_cons (p := (· == '-')) (ne_hyphen_of_counts hlast),
    Text.dropEndWhile_nil]

/-- The four groups of a well written short number, the last of them one character. -/
theorem exists_groups (h : WellWritten isbn10 cs) : ∃ first second third c,
    cs = ['-'].intercalate [first, second, third, [c]] ∧ first.length = 1 ∧ second.length = 3 ∧
      third.length = 5 ∧ ∀ d ∈ [first, second, third, [c]].flatten, counts d = true := by
  obtain ⟨groups, htext, hlengths, ds, hspells, -⟩ := h
  obtain ⟨first, _, rfl, hfirst, hlengths⟩ := List.map_eq_cons_iff.mp hlengths
  obtain ⟨second, _, rfl, hsecond, hlengths⟩ := List.map_eq_cons_iff.mp hlengths
  obtain ⟨third, _, rfl, hthird, hlengths⟩ := List.map_eq_cons_iff.mp hlengths
  obtain ⟨last, _, rfl, hlast, hlengths⟩ := List.map_eq_cons_iff.mp hlengths
  obtain rfl := List.map_eq_nil_iff.mp hlengths
  obtain ⟨c, rfl⟩ := List.length_eq_one_iff.mp hlast
  exact ⟨first, second, third, c, htext, hfirst, hsecond, hthird, hspells.all_count⟩

/-- The groups of a well written number are those of its long form, behind one for 978. -/
theorem grouped_lengthened (hwell : WellWritten isbn10 (Text.trim cs)) (hcheck : check.isDigit = true) :
    Grouped isbn13 (lengthened cs check) := by
  obtain ⟨first, second, third, c, htext, hfirst, hsecond, hthird, hcounts⟩ := exists_groups hwell
  let body := first ++ '-' :: (second ++ '-' :: (third ++ ['-']))
  have htrim : Text.trim cs = body ++ [c] := by
    rw [htext]
    simp [body]
  have hhyphenated : hyphenated cs = body ++ [c] := by
    apply hyphenated_eq htrim
    · intro d hd
      by_cases hhyphen : d = '-'
      · exact .inl hhyphen
      · refine .inr (hcounts d ?_)
        simpa [body, hhyphen] using hd
    · exact hcounts c (by simp)
  have hhyphen : '-' ∈ hyphenated cs := by
    rw [hhyphenated]
    simp [body]
  refine ⟨[['9', '7', '8'], first, second, third, [check]], ?_, ?_, ?_⟩
  · -- The hyphen behind 978 and the one that is kept before the check digit make five groups.
    unfold lengthened
    rw [if_pos hhyphen, hhyphenated, List.dropLast_concat]
    simp [body]
  · apply not_hyphen_mem_of_count
    intro d hd
    have hmem : d ∈ ['9', '7', '8'] ∨ d ∈ [first, second, third, [c]].flatten ∨ d = check := by
      simp only [List.flatten_cons, List.flatten_nil, List.append_nil, List.mem_append,
        List.mem_singleton] at hd ⊢
      tauto
    rcases hmem with hfront | hgroups | rfl
    · have hall : ∀ d ∈ ['9', '7', '8'], counts d = true := List.all_eq_true.mp rfl
      exact hall d hfront
    · exact hcounts d hgroups
    · exact (isBlank_and_counts_of_isDigit hcheck).2
  · show [3, first.length, second.length, third.length, 1] = [3, 1, 3, 5, 1]
    rw [hfirst, hsecond, hthird]

/-- A number that is well written is so in its long form. -/
theorem InParts.validate_lengthened (h : InParts cs body nine us c) (hvalid : validate cs = []) :
    validate (lengthened cs (checkChar us)) = [] := by
  have hdigit := isDigit_checkChar us
  obtain ⟨kind, hwell⟩ := validate_eq_nil_iff.mp hvalid
  have hsize := (wellWritten_iff.mp hwell).1
  obtain rfl : kind = .isbn10 := by
    apply size_injective
    rw [← hsize, h.compact_eq, List.length_append, h.length_eq]
    rfl
  have hchecks : isbn13.Checks (compact (lengthened cs (checkChar us))) :=
    (checksumValid_iff_checks (h.length_lengthened hdigit)).mp ((h.checksumValid_iff hdigit).mpr rfl)
  refine validate_eq_nil_iff.mpr ⟨.isbn13, wellWritten_iff.mpr ⟨h.length_lengthened hdigit, hchecks, ?_⟩⟩
  rw [trim_lengthened cs hdigit]
  exact grouped_lengthened hwell hdigit

/-! ## Conversion -/

theorem isFormat_iff : p.isFormat = true ↔ ∃ kind, p = .badFormat kind := by
  cases p <;> simp [Problem.isFormat]

theorem kindOf?_eq_some : kindOf? cs = some kind ↔ (compact cs).length = kind.size :=
  ofLength?_eq_some

/-- Nothing is said about a long number with nothing wrong. -/
theorem isbn_eq_nil {e : Entry} {ctx : Context} {text : List Char}
    (htext : e.text? "isbn" = some (String.ofList text)) (hvalid : validate text = [])
    (hkind : kindOf? text = some .isbn13) : Checks.isbn e ctx = .ok [] := by
  unfold Checks.isbn
  simp only [htext, String.toList_ofList, hvalid, hkind]
  rfl

/-- The first problem besides the groups is why a short number is not converted. -/
theorem exists_invalid (hkind : kindOf? cs = some .isbn10)
    (hother : ¬ ∀ p ∈ validate cs, ∃ kind, p = .badFormat kind) :
    ∃ front p back, validate cs = front ++ p :: back ∧
      (∀ q ∈ front, ∃ kind, q = .badFormat kind) ∧ (∀ kind, p ≠ .badFormat kind) ∧
      toIsbn13 cs = .error (.invalid p) := by
  cases hfind : (validate cs).find? (fun p => !p.isFormat) with
  | none =>
      refine absurd ?_ hother
      intro p hp
      have hnot := List.find?_eq_none.mp hfind p hp
      exact isFormat_iff.mp (by simpa using hnot)
  | some p =>
      obtain ⟨hp, front, back, hsplit, hfront⟩ := List.find?_eq_some_iff_append.mp hfind
      refine ⟨front, p, back, hsplit, ?_, ?_, toIsbn13_eq_invalid hkind hfind⟩
      · intro q hq
        have hnot := hfront q hq
        exact isFormat_iff.mp (by simpa using hnot)
      · rintro kind rfl
        cases hp

/-- A short number in which at most the groups are wrong is converted to the long number with the same
groups and the one digit that checks it, and if nothing is wrong with it, nothing is with that either.
Anything else is not converted, and the first problem besides the groups is why. -/
theorem toIsbn13_exact (cs : List Char) :
    ((compact cs).length = 10 → (∀ p ∈ validate cs, ∃ kind, p = .badFormat kind) →
      ∃ check : Char, check.isDigit = true ∧
        toIsbn13 cs = .ok (String.ofList (lengthened cs check)) ∧
        compact (lengthened cs check) = ['9', '7', '8'] ++ (compact cs).take 9 ++ [check] ∧
        (∀ c ∈ (compact cs).take 9, c.isDigit = true) ∧
        (∀ digit : Char, digit.isDigit = true →
          (checksumValid (lengthened cs digit) = true ↔ digit = check)) ∧
        kindOf? (lengthened cs check) = some .isbn13 ∧
        (validate cs = [] → validate (lengthened cs check) = [] ∧
          ∀ e ctx, e.text? "isbn" = some (String.ofList (lengthened cs check)) →
            Checks.isbn e ctx = .ok [])) ∧
      ((compact cs).length ≠ 10 →
        toIsbn13 cs = .error (.notIsbn10 (String.ofList (Text.trim cs)))) ∧
      ((compact cs).length = 10 → ¬ (∀ p ∈ validate cs, ∃ kind, p = .badFormat kind) →
        ∃ front p back, validate cs = front ++ p :: back ∧
          (∀ q ∈ front, ∃ kind, q = .badFormat kind) ∧ (∀ kind, p ≠ .badFormat kind) ∧
          toIsbn13 cs = .error (.invalid p)) := by
  refine ⟨?_, ?_, ?_⟩
  · intro hlength hformat
    -- An illegal character would be a problem besides the groups.
    have hlegal : ∀ c, ¬ Illegal (compact cs) c := by
      intro c hc
      obtain ⟨kind, hkind⟩ :=
        hformat _ (mem_validate.mpr (.inl (mem_characterProblems.mpr ⟨⟨c, hc⟩, rfl⟩)))
      cases hkind
    obtain ⟨body, nine, us, c, h⟩ := exists_inParts hlength hlegal
    have hdigit := isDigit_checkChar us
    have hlong := kindOf?_eq_some.mpr (h.length_lengthened hdigit)
    rw [h.take_compact]
    refine ⟨checkChar us, hdigit, ?_, h.compact_lengthened hdigit, (h.spells_long 0).all_digits,
      fun digit => h.checksumValid_iff, hlong, ?_⟩
    · rw [← h.longForm_eq]
      exact toIsbn13_eq_ok (kindOf?_eq_some.mpr hlength) fun p hp => isFormat_iff.mpr (hformat p hp)
    · intro hvalid
      have hvalid' := h.validate_lengthened hvalid
      exact ⟨hvalid', fun e ctx htext => isbn_eq_nil htext hvalid' hlong⟩
  · intro hlength
    exact toIsbn13_eq_notIsbn10 fun hkind => hlength (kindOf?_eq_some.mp hkind)
  · intro hlength hother
    exact exists_invalid (kindOf?_eq_some.mpr hlength) hother

/-- A valid short number. -/
def shortNumber : List Char := "0-306-40615-2".toList

/-- An entry that gives it in its long form. -/
def longNumberEntry : Entry :=
  (Entry.new "book" "k" ⟨"refs.bib"⟩ 1).insertField "isbn" "{978-0-306-40615-7}" 2

/-- A short number in wrong groups, with blanks and an X. -/
def looseNumber : List Char := " 0-97522  98-0 X-".toList

/-- Its last character is wrong, and so are its groups. -/
def wrongNumber : List Char := "0-306-406-153".toList

theorem toIsbn13_exact_samples :
    (toIsbn13 shortNumber = .ok "978-0-306-40615-7" ∧ validate "978-0-306-40615-7".toList = [] ∧
      Checks.isbn longNumberEntry ⟨.ofEntries [], none, none, false⟩ = .ok []) ∧
      (validate looseNumber = [.badFormat .isbn10] ∧
        toIsbn13 looseNumber = .ok "978-0-97522--98-0-4") ∧
      toIsbn13 "12 34".toList = .error (.notIsbn10 "12 34") ∧
      toIsbn13 wrongNumber = .error (.invalid (.badChecksum .isbn10)) := by
  have hvalid : validate shortNumber = [] := by decide
  have hloose : validate looseNumber = [.badFormat .isbn10] := by decide
  have hwrong : validate wrongNumber = [.badChecksum .isbn10, .badFormat .isbn10] := by decide
  refine ⟨?_, ⟨hloose, ?_⟩, ?_, ?_⟩
  · obtain ⟨check, -, hresult, -, -, honly, -, hkept⟩ :=
      (toIsbn13_exact shortNumber).1 (by decide) (by rw [hvalid]; exact nofun)
    obtain rfl : '7' = check := (honly '7' rfl).mp (by decide)
    obtain ⟨hlong, hsilent⟩ := hkept hvalid
    have htext : longNumberEntry.text? "isbn" = some (String.ofList (lengthened shortNumber '7')) := by
      decide
    exact ⟨hresult, hlong, hsilent longNumberEntry _ htext⟩
  · have hformat : ∀ p ∈ validate looseNumber, ∃ kind, p = .badFormat kind := by
      rw [hloose]
      simp
    obtain ⟨check, -, hresult, -, -, honly, -⟩ := (toIsbn13_exact looseNumber).1 (by decide) hformat
    obtain rfl : '4' = check := (honly '4' rfl).mp (by decide)
    exact hresult
  · exact (toIsbn13_exact "12 34".toList).2.1 (by decide)
  · have hother : ¬ ∀ p ∈ validate wrongNumber, ∃ kind, p = .badFormat kind := by
      rw [hwrong]
      simp
    obtain ⟨front, p, back, hsplit, hfront, hp, hresult⟩ :=
      (toIsbn13_exact wrongNumber).2.2 (by decide) hother
    rw [hwrong] at hsplit
    cases front with
    | nil =>
        obtain ⟨rfl, -⟩ := List.cons.inj hsplit
        exact hresult
    | cons q front =>
        obtain ⟨rfl, -⟩ := List.cons.inj hsplit
        obtain ⟨kind, hkind⟩ := hfront _ List.mem_cons_self
        cases hkind

end BibAudit.Isbn
