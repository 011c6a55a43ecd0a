/-
# BibAudit.Proofs.Checks.Month — months that are bare abbreviations.

A month is to be one of twelve abbreviations and nothing else.  The check looks at the single token
that reading leaves of the value, and at the least depth in it.  So it is silent on the abbreviations,
and complains once about every other value in which no brace stands.  Braces escape it where reading
takes them out of the token: around nothing, around some letters as long as one letter is left
outside, behind the month and not closed, and from a closing brace on that closes nothing.
-/
import BibAudit.Checks.Publication
import BibAudit.Proofs.Checks.Link
import BibAudit.Proofs.Value.Words

namespace BibAudit.Checks

open Text (trim)
open Value (ReadsAsWord)

variable {e : Entry} {ctx : Context} {field : Field} {month value : String}
  {s : Value.Scanned}

/-- Nothing is wrong with a value that has one token, which is an abbreviation with a letter outside
braces, and no delimiter. -/
theorem monthFault?_eq_none : monthFault? s = none ↔ ∃ month ∈ months, s.delimiter = .bare ∧
    ∃ t, s.tokens = [t] ∧ t.chars = month.toList ∧ Value.Token.depth t = 0 := by
  unfold monthFault?
  constructor
  · intro h
    split at h
    · next t htokens =>
        dsimp only at h
        split at h
        · cases h
        · next hmonth =>
            split at h
            · cases h
            · next hbare =>
                simp only [Bool.not_eq_true', Bool.not_eq_false, List.contains_iff_mem] at hmonth
                simp only [Bool.or_eq_true, bne_iff_ne, ne_eq, decide_eq_true_eq, not_or,
                  Classical.not_not, Nat.not_lt, Nat.le_zero] at hbare
                exact ⟨_, hmonth, hbare.1, t, htokens, String.toList_ofList.symm, hbare.2⟩
    · cases h
  · rintro ⟨month, hmonth, hbare, t, htokens, hchars, hdepth⟩
    have htext : Value.Token.text t = month := by
      rw [Value.Token.text, hchars, String.ofList_toList]
    simp [htokens, htext, hmonth, hbare, hdepth]

/-- The abbreviations are words of letters. -/
theorem month_letters (h : month ∈ months) :
    Text.IsWord month.toList ∧ (∀ c ∈ month.toList, Value.isBrace c = false) ∧
      '\\' ∉ month.toList ∧ '"' ∉ month.toList := by
  have hall : ∀ month ∈ months, Text.IsWord month.toList ∧
      (month.toList.all fun c => !Value.isBrace c) = true ∧
        '\\' ∉ month.toList ∧ '"' ∉ month.toList := by decide
  obtain ⟨hword, hbraces, hescapes⟩ := hall month h
  refine ⟨hword, fun c hc => ?_, hescapes⟩
  simpa using List.all_eq_true.mp hbraces c hc

/-- The value reads as one of the abbreviations outside braces. -/
def ReadsAsMonth (value : List Char) : Prop :=
  ∃ month ∈ months, ReadsAsWord month.toList value

theorem monthFault?_scanField (raw : List Char) :
    monthFault? (Value.scanField raw) = none ↔ ReadsAsMonth (trim raw) := by
  rw [monthFault?_eq_none]
  refine exists_congr fun month => and_congr_right fun hmonth => ?_
  obtain ⟨-, -, hbackslash, hquote⟩ := month_letters hmonth
  exact Value.scanField_word hbackslash hquote raw

/-- The abbreviations read as themselves, with blanks around them or not. -/
theorem readsAsMonth_of_mem (h : Text.trimString value ∈ months) :
    ReadsAsMonth (trim value.toList) := by
  obtain ⟨hword, hbraces, -⟩ := month_letters h
  have htrim : (Text.trimString value).toList = trim value.toList := String.toList_ofList
  refine ⟨_, h, ?_⟩
  rw [← htrim]
  exact Value.readsAsWord_self hword hbraces

/-- Where no brace stands, nothing else reads as one of them. -/
theorem mem_of_readsAsMonth (hbraces : ∀ c ∈ value.toList, Value.isBrace c = false)
    (h : ReadsAsMonth (trim value.toList)) : Text.trimString value ∈ months := by
  obtain ⟨month, hmonth, hreads⟩ := h
  have hinner : ∀ c ∈ trim value.toList, Value.isBrace c = false := by
    obtain ⟨front, back, hvalue, -, -⟩ := Text.blanks_around_trim value.toList
    intro c hc
    apply hbraces
    rw [hvalue]
    exact List.mem_append_right _ (List.mem_append_left _ hc)
  have hmeant : trim value.toList = month.toList :=
    hreads.eq_of_unbraced (Text.tight_trim _) hinner
  show String.ofList (trim value.toList) ∈ months
  rw [hmeant, String.ofList_toList]
  exact hmonth

theorem misformattedMonth_eq (h : e.fields.lookup "month" = some field) :
    misformattedMonth e ctx = .ok ((monthFault? (Value.scanField field.value.toList)).toList.map
      (e.complainAt .misformattedMonth "month")) := by
  rw [misformattedMonth, Entry.scanned?, Entry.field?, h]
  rfl

theorem misformattedMonth_eq_nil (h : e.fields.lookup "month" = some field) :
    misformattedMonth e ctx = .ok [] ↔ ReadsAsMonth (trim field.value.toList) := by
  rw [misformattedMonth_eq h, ← monthFault?_scanField]
  cases monthFault? (Value.scanField field.value.toList) <;> simp

theorem misformattedMonth_eq_singleton (h : e.fields.lookup "month" = some field)
    (hnot : ¬ ReadsAsMonth (trim field.value.toList)) : ∃ message, misformattedMonth e ctx =
      .ok [⟨⟨e.path, field.line⟩, some e.key, "misformatted-month", message, []⟩] := by
  rw [← monthFault?_scanField] at hnot
  obtain ⟨message, hmessage⟩ := Option.ne_none_iff_exists'.mp hnot
  refine ⟨message, ?_⟩
  rw [misformattedMonth_eq h, hmessage]
  simp only [Option.toList_some, List.map_cons, List.map_nil, Entry.complainAt, Entry.locationOf, h]
  rfl

/-- The check is silent exactly if the value reads as an abbreviation outside braces: braces taken out,
the part that is read is one of the twelve, and one of its letters stands outside them.  Otherwise it
complains once, at the line of the field.  It is silent on the abbreviations themselves, with blanks
around them or not, and of the values without braces on no others; and it complains about every value
that has a delimiter. -/
theorem misformattedMonth_exact (h : e.fields.lookup "month" = some field) :
    (misformattedMonth e ctx = .ok [] ↔ ReadsAsMonth (trim field.value.toList)) ∧
      (¬ ReadsAsMonth (trim field.value.toList) → ∃ message, misformattedMonth e ctx =
        .ok [⟨⟨e.path, field.line⟩, some e.key, "misformatted-month", message, []⟩]) ∧
      (Text.trimString field.value ∈ months → misformattedMonth e ctx = .ok []) ∧
      ((∀ c ∈ field.value.toList, Value.isBrace c = false) →
        (misformattedMonth e ctx = .ok [] ↔ Text.trimString field.value ∈ months)) ∧
      ((Value.scanField field.value.toList).delimiter ≠ .bare → misformattedMonth e ctx ≠ .ok []) := by
  have hsilent : misformattedMonth e ctx = .ok [] ↔ ReadsAsMonth (trim field.value.toList) :=
    misformattedMonth_eq_nil h
  refine ⟨hsilent, misformattedMonth_eq_singleton h, ?_, ?_, ?_⟩
  · intro hmonth
    exact hsilent.mpr (readsAsMonth_of_mem hmonth)
  · intro hbraces
    rw [hsilent]
    exact ⟨mem_of_readsAsMonth hbraces, readsAsMonth_of_mem⟩
  · intro hdelimiter hnone
    obtain ⟨month, hmonth, hreads⟩ := hsilent.mp hnone
    obtain ⟨-, -, hbackslash, hquote⟩ := month_letters hmonth
    exact hdelimiter ((Value.scanField_word hbackslash hquote _).mpr hreads).1

/-- An entry with this month. -/
def monthEntry (value : String) : Entry :=
  ⟨"misc", "k", ⟨"refs.bib"⟩, 1, 3, [("month", ⟨value, 2⟩)], []⟩

theorem misformattedMonth_exact_values :
    (monthEntry " jan ").fields.lookup "month" = some ⟨" jan ", 2⟩ ∧
      (Text.trimString " jan " ∈ months ∧
        misformattedMonth (monthEntry " jan ") emptyContext = .ok []) ∧
      ((∀ c ∈ "March".toList, Value.isBrace c = false) ∧
        misformattedMonth (monthEntry "March") emptyContext ≠ .ok []) ∧
      (Value.scanField "\x7bjan\x7d".toList).delimiter ≠ .bare ∧
      ¬ ReadsAsMonth (trim "\x7bjan\x7d".toList) ∧
      ∃ message, misformattedMonth (monthEntry "\x7bjan\x7d") emptyContext =
        .ok [⟨⟨⟨"refs.bib"⟩, 2⟩, some "k", "misformatted-month", message, []⟩] := by
  have hfield : ∀ value, (monthEntry value).fields.lookup "month" = some ⟨value, 2⟩ := fun _ => rfl
  have hjan : Text.trimString " jan " ∈ months := by decide
  have hmarch : ∀ c ∈ "March".toList, Value.isBrace c = false := by
    intro c hc
    have hall : ("March".toList.all fun c => !Value.isBrace c) = true := by decide
    simpa using List.all_eq_true.mp hall c hc
  have hbraced : (Value.scanField "\x7bjan\x7d".toList).delimiter ≠ .bare := by decide
  obtain ⟨-, -, hliteral, -⟩ := @misformattedMonth_exact _ emptyContext _ (hfield " jan ")
  obtain ⟨-, -, -, hplain, -⟩ := @misformattedMonth_exact _ emptyContext _ (hfield "March")
  obtain ⟨hsilent, hcomplains, -, -, hdelimited⟩ :=
    @misformattedMonth_exact _ emptyContext _ (hfield "\x7bjan\x7d")
  have hnot : ¬ ReadsAsMonth (trim "\x7bjan\x7d".toList) :=
    fun h => hdelimited hbraced (hsilent.mpr h)
  refine ⟨hfield _, ⟨hjan, hliteral hjan⟩, ⟨hmarch, fun h => ?_⟩, hbraced, hnot, hcomplains hnot⟩
  exact absurd ((hplain hmarch).mp h) (by decide)

/-- Braces around one letter are passed over, as are braces around nothing, and a closing brace that
closes nothing with all that follows it. -/
theorem misformattedMonth_partlyBraced :
    misformattedMonth (monthEntry "\x7bj\x7dan") emptyContext = .ok [] ∧
      misformattedMonth (monthEntry "\x7b\x7djan") emptyContext = .ok [] ∧
      misformattedMonth (monthEntry "jan\x7d 1st") emptyContext = .ok [] ∧
      ¬ ∀ e ctx field, e.fields.lookup "month" = some field →
        (misformattedMonth e ctx = .ok [] ↔ Text.trimString field.value ∈ months) := by
  have hsilent : misformattedMonth (monthEntry "\x7bj\x7dan") emptyContext = .ok [] := by rfl
  refine ⟨hsilent, by rfl, by rfl, fun h => ?_⟩
  exact absurd ((h _ emptyContext ⟨"\x7bj\x7dan", 2⟩ rfl).mp hsilent) (by decide)

end BibAudit.Checks
