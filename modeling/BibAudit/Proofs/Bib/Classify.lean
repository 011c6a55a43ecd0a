/-
# BibAudit.Proofs.Bib.Classify — what written lines are taken for.

A written directive, header or field start is classified as what it was written as, with the same
parts.  Each pattern reads a run of characters of one class up to a character outside the class, so
everything rests on where such a run stops.
-/
import BibAudit.Proofs.Bib.Draft
import Mathlib.Data.List.TakeWhile

namespace BibAudit.Bib

open Text (isBlank Tight trim trimStart)

/-! ## Runs of one class -/

section Runs

variable {p : Char → Bool} {run rest : List Char} {stop : Char}

theorem takeWhile_run (h : ∀ c ∈ run, p c = true) (hs : p stop = false) :
    (run ++ stop :: rest).takeWhile p = run := by
  refine Text.takeWhile_run h ?_
  rintro c ⟨⟩
  exact hs

theorem dropWhile_run (h : ∀ c ∈ run, p c = true) (hs : p stop = false) :
    (run ++ stop :: rest).dropWhile p = stop :: rest := by
  refine Text.dropWhile_run h ?_
  rintro c ⟨⟩
  exact hs

theorem trimStart_run (hne : run ≠ []) (h : ∀ c ∈ run, isBlank c = false) :
    trimStart (run ++ rest) = run ++ rest := by
  obtain ⟨a, more, rfl⟩ := List.exists_cons_of_ne_nil hne
  refine Text.trimStart_eq_self fun c hc => ?_
  obtain rfl : a = c := by simpa using hc
  exact h a List.mem_cons_self

end Runs

/-! ## Classes of characters -/

theorem toNat_lt_of_isKeyChar {c : Char} (h : isKeyChar c = true) : c.toNat < 128 := by
  simp only [isKeyChar, Bool.or_eq_true, beq_iff_eq] at h
  rcases h with ((((h | rfl) | rfl) | rfl) | rfl) | rfl
  · exact Text.toNat_lt_of_isAlphanum h
  all_goals decide

theorem isKeyChar_of_isNameChar {c : Char} (h : isNameChar c = true) : isKeyChar c = true := by
  simp only [isNameChar, Bool.or_eq_true] at h
  simp only [isKeyChar, Bool.or_eq_true]
  rcases h with (h | h) | h <;> simp [h]

theorem isNameChar_of_isAlpha {c : Char} (h : c.isAlpha = true) : isNameChar c = true := by
  simp [isNameChar, Char.isAlphanum, h]

theorem isBlank_of_isKeyChar {c : Char} (h : isKeyChar c = true) : isBlank c = false :=
  Text.forall_ascii (p := fun c => isKeyChar c = true → isBlank c = false) (by decide)
    (toNat_lt_of_isKeyChar h) h

theorem isBlank_of_isNameChar {c : Char} (h : isNameChar c = true) : isBlank c = false :=
  isBlank_of_isKeyChar (isKeyChar_of_isNameChar h)

theorem continuesWord_of_isAlpha {c : Char} (h : c.isAlpha = true) :
    Text.continuesWord c = true :=
  Text.forall_ascii (p := fun c => c.isAlpha = true → Text.continuesWord c = true) (by decide)
    (toNat_lt_of_isKeyChar (isKeyChar_of_isNameChar (isNameChar_of_isAlpha h))) h

theorem foldLetter_of_isAlpha {c : Char} (h : c.isAlpha = true) : foldLetter c = c.toLower := by
  have hc := toNat_lt_of_isKeyChar (isKeyChar_of_isNameChar (isNameChar_of_isAlpha h))
  rw [foldLetter, if_neg (by simp; omega)]

/-! ## Directives -/

section Directives

variable {d : DirectiveDraft} (h : d.WellFormed)
include h

theorem DirectiveDraft.WellFormed.tight_check : Tight d.check :=
  ⟨fun c hc => h.check_word c (List.mem_of_mem_head? hc),
    fun c hc => h.check_word c (List.mem_of_getLast? hc)⟩

theorem DirectiveDraft.WellFormed.subject_ne : d.subject ≠ [] := by
  rw [subject]
  split
  · exact h.check_ne
  · simp

theorem DirectiveDraft.WellFormed.tight_subject : Tight d.subject := by
  rw [subject]
  split
  · exact h.tight_check
  · next r hr =>
      have hr' : r ∈ d.reason := hr
      have ht := h.tight_check.append (h.reason_tight r hr') h.check_ne (h.reason_ne r hr') [' ']
      rwa [List.append_assoc] at ht

theorem DirectiveDraft.WellFormed.tight_line : Tight d.line := by
  have hmark : Tight ['%'] := by decide
  exact hmark.append h.tight_subject (by simp) h.subject_ne [' ', 'L', 'I', 'N', 'T', ' ']

theorem takeWhile_subject : d.subject.takeWhile (fun c => !isBlank c) = d.check := by
  have hword : ∀ c ∈ d.check, (!isBlank c) = true := fun c hc => by simp [h.check_word c hc]
  rw [DirectiveDraft.subject]
  split
  · rw [List.takeWhile_eq_self_iff.mpr hword]
  · exact takeWhile_run hword (by decide)

theorem trim_dropWhile_subject :
    trim (d.subject.dropWhile fun c => !isBlank c) = d.reason.getD [] := by
  have hword : ∀ c ∈ d.check, (!isBlank c) = true := fun c hc => by simp [h.check_word c hc]
  rw [DirectiveDraft.subject]
  split
  · next hr =>
      rw [hr, List.dropWhile_eq_nil_iff.mpr hword]
      rfl
  · next r hr =>
      rw [dropWhile_run hword (by decide), hr]
      exact (h.reason_tight r hr).trim_indented
        (List.all_eq_true.mp (by decide : [' '].all isBlank = true))

theorem directive_subject :
    directive? (' ' :: 'L' :: 'I' :: 'N' :: 'T' :: ' ' :: d.subject) =
      some (d.check, d.reason) := by
  have hmark : trimStart (' ' :: 'L' :: 'I' :: 'N' :: 'T' :: ' ' :: d.subject) =
      'L' :: 'I' :: 'N' :: 'T' :: ' ' :: d.subject := rfl
  have hsubject : trimStart (' ' :: d.subject) = d.subject :=
    (rfl : trimStart (' ' :: d.subject) = trimStart d.subject).trans
      (Text.trimStart_eq_self h.tight_subject.head)
  have hreason : (if (d.reason.getD []).isEmpty then none else some (d.reason.getD [])) =
      d.reason := by
    rcases hr : d.reason with _ | r
    · rfl
    · simp [h.reason_ne r hr]
  rw [directive?, hmark]
  show (let subject := trimStart (' ' :: d.subject)
    let check := subject.takeWhile fun c => !isBlank c
    let reason := trim (subject.dropWhile fun c => !isBlank c)
    if subject.length < (' ' :: d.subject).length && !check.isEmpty then
      some (check, if reason.isEmpty then none else some reason)
    else none) = _
  dsimp only
  rw [hsubject, takeWhile_subject h, trim_dropWhile_subject h, hreason]
  simp [h.check_ne]

theorem classify_directive_line : classify d.line = .suppression d.check d.reason := by
  have hline : trim d.line = '%' :: ' ' :: 'L' :: 'I' :: 'N' :: 'T' :: ' ' :: d.subject :=
    h.tight_line.trim_eq
  simp only [classify, hline, directive_subject h]

end Directives

/-! ## Headers -/

section Headers

variable {kind key rest : List Char}

/-- A type that is no block name does not begin like one either: a longer word goes on with a
letter, and a shorter one meets the character behind it, which is none of the block name. -/
theorem startsWithWord_eq_false {word : List Char} {stop : Char}
    (hk : ∀ c ∈ kind, c.isAlpha = true) (hs : foldLetter stop ∉ word)
    (hne : kind.map Char.toLower ≠ word) :
    startsWithWord word (kind ++ stop :: rest) = false := by
  rw [startsWithWord, Bool.and_eq_false_iff]
  rcases Nat.lt_trichotomy word.length kind.length with hlt | heq | hgt
  · right
    obtain ⟨c, cs, hc⟩ := List.exists_cons_of_length_pos
      (l := kind.drop word.length) (by rw [List.length_drop]; omega)
    have hmem : c ∈ kind := List.mem_of_mem_drop (hc ▸ List.mem_cons_self)
    rw [List.drop_append_of_le_length hlt.le, hc]
    simp [continuesWord_of_isAlpha (hk c hmem)]
  · left
    rw [heq, List.take_left]
    have hfold : kind.map foldLetter = kind.map Char.toLower :=
      List.map_congr_left fun c hc => foldLetter_of_isAlpha (hk c hc)
    simpa [hfold] using hne
  · left
    have hstop : foldLetter stop ∈ ((kind ++ stop :: rest).take word.length).map foldLetter := by
      obtain ⟨k, hk⟩ : ∃ k, word.length - kind.length = k + 1 :=
        ⟨word.length - kind.length - 1, by omega⟩
      rw [List.take_append, hk, List.take_succ_cons, List.map_append, List.map_cons]
      exact List.mem_append_right _ List.mem_cons_self
    rw [beq_eq_false_iff_ne]
    intro he
    rw [he] at hstop
    exact hs hstop

theorem isBlank_of_mem_kind (hk : ∀ c ∈ kind, c.isAlpha = true) :
    ∀ c ∈ kind, isBlank c = false :=
  fun c hc => isBlank_of_isNameChar (isNameChar_of_isAlpha (hk c hc))

theorem isSpecial_eq_false {stop : Char} (hne : kind ≠ []) (hk : ∀ c ∈ kind, c.isAlpha = true)
    (hb : kind.map Char.toLower ∉ blockKinds) (hs : ∀ word ∈ blockKinds, foldLetter stop ∉ word) :
    isSpecial (kind ++ stop :: rest) = false := by
  have hword : ∀ word ∈ blockKinds, startsWithWord word (kind ++ stop :: rest) = false :=
    fun word hw => startsWithWord_eq_false hk (hs word hw) fun he => hb (he ▸ hw)
  rw [isSpecial, trimStart_run hne (isBlank_of_mem_kind hk), hword "comment".toList (by decide),
    hword "string".toList (by decide), hword "preamble".toList (by decide)]
  rfl

theorem header_eq_some (hkind : kind ≠ []) (hk : ∀ c ∈ kind, c.isAlpha = true) (hkey : key ≠ [])
    (hc : ∀ c ∈ key, isKeyChar c = true) :
    header? (kind ++ '{' :: (key ++ ',' :: rest)) = some (kind, key, rest) := by
  have hstart : trimStart (kind ++ '{' :: (key ++ ',' :: rest)) =
      kind ++ '{' :: (key ++ ',' :: rest) := trimStart_run hkind (isBlank_of_mem_kind hk)
  have hletters : (kind ++ '{' :: (key ++ ',' :: rest)).takeWhile Char.isAlpha = kind :=
    takeWhile_run hk (by decide)
  have hbrace : trimStart ((kind ++ '{' :: (key ++ ',' :: rest)).dropWhile Char.isAlpha) =
      '{' :: (key ++ ',' :: rest) := by
    rw [dropWhile_run hk (by decide)]
    rfl
  have hinside : trimStart (key ++ ',' :: rest) = key ++ ',' :: rest :=
    trimStart_run hkey fun c h => isBlank_of_isKeyChar (hc c h)
  have hchars : (key ++ ',' :: rest).takeWhile isKeyChar = key := takeWhile_run hc (by decide)
  have hcomma : trimStart ((key ++ ',' :: rest).dropWhile isKeyChar) = ',' :: rest := by
    rw [dropWhile_run hc (by decide)]
    rfl
  simp only [header?, hstart, hletters, hbrace, hinside, hchars, hcomma]
  simp [hkind, hkey]

end Headers

theorem classify_headerLine {indent : List Char} {d : Draft} (h : d.WellFormed indent) :
    classify d.headerLine = .header d.kind d.key [] := by
  have htight : Tight d.headerLine := by
    have ht := Text.tight_between (a := '@') (z := ',') (by decide) (by decide)
      (d.kind ++ '{' :: d.key)
    rwa [List.append_assoc] at ht
  have hline : trim d.headerLine = '@' :: (d.kind ++ '{' :: (d.key ++ [','])) := htight.trim_eq
  have hspecial : isSpecial (d.kind ++ '{' :: (d.key ++ [','])) = false :=
    isSpecial_eq_false h.kind_ne h.kind_letters h.kind_entry (by decide)
  have hheader : header? (d.kind ++ '{' :: (d.key ++ [','])) = some (d.kind, d.key, []) :=
    header_eq_some h.kind_ne h.kind_letters h.key_ne h.key_chars
  simp only [classify, hline, hspecial, hheader]
  rfl

/-! ## Fields -/

section Fields

variable {name value : List Char}

theorem field_eq_some (hname : name ≠ []) (hn : ∀ c ∈ name, isNameChar c = true)
    (hv : Tight value) : field? (name ++ ' ' :: '=' :: ' ' :: value) = some (name, value) := by
  have hsign : trimStart (' ' :: '=' :: ' ' :: value) = '=' :: ' ' :: value := rfl
  have hvalue : trimStart (' ' :: value) = value :=
    (rfl : trimStart (' ' :: value) = trimStart value).trans (Text.trimStart_eq_self hv.head)
  rw [field?, takeWhile_run hn (by decide), dropWhile_run hn (by decide), hsign]
  show (if name.isEmpty then none else some (name, trimStart (' ' :: value))) = _
  rw [hvalue]
  simp [hname]

/-- A line that begins with a name character is a field start if it has the form of one. -/
theorem classify_of_field {c : Char} {rest : List Char} (hc : isNameChar c = true)
    (ht : Tight (c :: rest)) (hf : field? (c :: rest) = some (name, value)) {indent : List Char}
    (hi : ∀ b ∈ indent, isBlank b = true) :
    classify (indent ++ c :: rest) = .fieldStart name value := by
  have hne : c ≠ '%' ∧ c ≠ '}' ∧ c ≠ '@' := by
    refine ⟨?_, ?_, ?_⟩ <;> rintro rfl <;> revert hc <;> decide
  rw [classify, ht.trim_indented hi]
  split
  · contradiction
  · next h => exact absurd (List.cons.inj h).1 hne.1
  · next h => exact absurd (List.cons.inj h).1 hne.2.1
  · next h => exact absurd (List.cons.inj h).1 hne.2.2
  · rw [hf]

end Fields

/-- A value that goes on over several lines leaves something on the first one. -/
theorem FieldDraft.WellFormed.written_ne {indent : List Char} {f : FieldDraft}
    (h : f.WellFormed indent) : f.first ++ commaBefore f.more ≠ [] := by
  rcases hm : f.more with _ | ⟨piece, more⟩
  · simp [commaBefore]
  · intro hnil
    have hfirst : f.first = [] := (List.append_eq_nil_iff.mp hnil).1
    have hhead : ' ' ∈ f.value.head? := by simp [FieldDraft.value, hfirst, hm]
    exact absurd (h.value_tight.head ' ' hhead) (by decide)

theorem tight_append_comma {piece : List Char} (h : Tight piece) (more : List (List Char)) :
    Tight (piece ++ commaBefore more) := by
  rcases more with _ | ⟨next, more⟩
  · rcases List.eq_nil_or_concat piece with rfl | ⟨front, z, rfl⟩
    · show Tight [',']
      decide
    · have hcomma : Tight [','] := by decide
      simpa [commaBefore] using h.append hcomma (by simp) (by simp) []
  · simpa [commaBefore] using h

theorem classify_startLine {indent : List Char} {f : FieldDraft} (h : f.WellFormed indent) :
    classify f.startLine = .fieldStart f.name (f.first ++ commaBefore f.more) := by
  have hvalue : Tight (f.first ++ commaBefore f.more) :=
    tight_append_comma (h.breaks f.first List.mem_cons_self) f.more
  have hfield := field_eq_some h.name_ne h.name_chars hvalue
  have hname : Tight f.name :=
    ⟨fun c hc => isBlank_of_isNameChar (h.name_chars c (List.mem_of_mem_head? hc)),
      fun c hc => isBlank_of_isNameChar (h.name_chars c (List.mem_of_getLast? hc))⟩
  have hline : Tight (f.name ++ ' ' :: '=' :: ' ' :: (f.first ++ commaBefore f.more)) := by
    have ht := hname.append hvalue h.name_ne h.written_ne [' ', '=', ' ']
    rwa [List.append_assoc] at ht
  obtain ⟨c, rest, hc⟩ := List.exists_cons_of_ne_nil h.name_ne
  rw [hc, List.cons_append] at hline hfield
  rw [FieldDraft.startLine, hc, List.cons_append]
  exact classify_of_field (h.name_chars c (hc ▸ List.mem_cons_self)) hline hfield
    (List.all_eq_true.mp (by decide : [' ', ' '].all isBlank = true))

end BibAudit.Bib
