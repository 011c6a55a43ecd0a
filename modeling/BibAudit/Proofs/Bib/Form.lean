/-
# BibAudit.Proofs.Bib.Form — what the parts of a line look like.

A line is classified as a header, a field start or a directive only if its parts have their form.  A
type is made of letters and is no block name in any case, a key is made of key characters, and the
name of a field or of a check is never empty.
-/
import BibAudit.Proofs.Bib.Classify

namespace BibAudit.Bib

open Text (isBlank trim trimStart)

variable {cs raw kind key rest name value check : List Char} {reason : Option (List Char)}

/-! ## Patterns -/

/-- The parts of a field, one after the other. -/
theorem field_parts (h : field? cs = some (name, value)) :
    ∃ signed, cs.takeWhile isNameChar = name ∧
      trimStart (cs.dropWhile isNameChar) = '=' :: signed ∧ trimStart signed = value ∧
      name.isEmpty = false := by
  unfold field? at h
  simp only at h
  split at h
  · next signed hsign =>
      split at h
      · cases h
      · next hne =>
          obtain ⟨rfl, rfl⟩ := Prod.mk.inj (Option.some.inj h)
          exact ⟨signed, rfl, hsign, rfl, by simpa using hne⟩
  · cases h

theorem field_form (h : field? cs = some (name, value)) : name ≠ [] := by
  obtain ⟨-, -, -, -, hne⟩ := field_parts h
  simpa using hne

theorem directive_form (h : directive? cs = some (check, reason)) : check ≠ [] := by
  unfold directive? at h
  split at h
  · simp only at h
    split at h
    · next hparts =>
        obtain ⟨rfl, -⟩ := Prod.mk.inj (Option.some.inj h)
        rw [Bool.and_eq_true] at hparts
        simpa using hparts.2
    · cases h
  · cases h

/-- The parts of a header, one after the other, each up to the character that ends it. -/
theorem header_parts (h : header? cs = some (kind, key, rest)) :
    ∃ inside, (trimStart cs).takeWhile Char.isAlpha = kind ∧
      trimStart ((trimStart cs).dropWhile Char.isAlpha) = '{' :: inside ∧
      (trimStart inside).takeWhile isKeyChar = key ∧
      trimStart ((trimStart inside).dropWhile isKeyChar) = ',' :: rest ∧
      (kind.isEmpty || key.isEmpty) = false := by
  unfold header? at h
  simp only at h
  split at h
  · next inside hbrace =>
      split at h
      · next hcomma =>
          split at h
          · cases h
          · next hfilled =>
              obtain ⟨rfl, hrest⟩ := Prod.mk.inj (Option.some.inj h)
              obtain ⟨rfl, rfl⟩ := Prod.mk.inj hrest
              exact ⟨inside, rfl, hbrace, rfl, hcomma, by simpa using hfilled⟩
      · cases h
  · cases h

/-- A header begins with its type, which blanks may separate from the opening brace. -/
theorem header_form (h : header? cs = some (kind, key, rest)) :
    (kind ≠ [] ∧ key ≠ [] ∧ ∀ c ∈ key, isKeyChar c = true) ∧
      kind = (trimStart cs).takeWhile Char.isAlpha ∧
      (trimStart ((trimStart cs).dropWhile Char.isAlpha)).head? = some '{' := by
  obtain ⟨inside, rfl, hbrace, rfl, -, hfilled⟩ := header_parts h
  rw [Bool.or_eq_false_iff, List.isEmpty_eq_false_iff, List.isEmpty_eq_false_iff] at hfilled
  exact ⟨⟨hfilled.1, hfilled.2, fun c hc => List.mem_takeWhile_imp hc⟩, rfl, by rw [hbrace]; rfl⟩

/-! ## Types are no block names -/

/-- The blanks by their code points. -/
def blankCodes : List Nat :=
  [0x09, 0x0A, 0x0B, 0x0C, 0x0D, 0x20, 0x85, 0xA0, 0x1680, 0x2000, 0x2001, 0x2002, 0x2003, 0x2004,
    0x2005, 0x2006, 0x2007, 0x2008, 0x2009, 0x200A, 0x2028, 0x2029, 0x202F, 0x205F, 0x3000]

theorem mem_blankCodes {c : Char} (h : isBlank c = true) : c.toNat ∈ blankCodes := by
  simp [isBlank] at h
  simp [blankCodes]
  omega

theorem continuesWord_of_isBlank {c : Char} (h : isBlank c = true) :
    Text.continuesWord c = false := by
  have hall : ∀ n ∈ blankCodes, Text.continuesWord (Char.ofNat n) = false := by decide +kernel
  have hc := hall _ (mem_blankCodes h)
  rwa [Char.ofNat_toNat] at hc

/-- What begins with a block name, blanks or an opening brace following it, is a block. -/
theorem startsWithWord_of_takeWhile {word text : List Char}
    (hword : (text.takeWhile Char.isAlpha).map Char.toLower = word)
    (hbrace : (trimStart (text.dropWhile Char.isAlpha)).head? = some '{') :
    startsWithWord word text = true := by
  have hletters : ∀ c ∈ text.takeWhile Char.isAlpha, c.isAlpha = true :=
    fun c hc => List.mem_takeWhile_imp hc
  have hfold : (text.takeWhile Char.isAlpha).map foldLetter = word := by
    rw [← hword]
    exact List.map_congr_left fun c hc => foldLetter_of_isAlpha (hletters c hc)
  have hlen : word.length = (text.takeWhile Char.isAlpha).length := by
    rw [← hword, List.length_map]
  have hsplit : text.takeWhile Char.isAlpha ++ text.dropWhile Char.isAlpha = text :=
    List.takeWhile_append_dropWhile
  have htake : text.take word.length = text.takeWhile Char.isAlpha := by
    rw [hlen]
    nth_rewrite 2 [← hsplit]
    rw [List.take_left]
  have hdrop : text.drop word.length = text.dropWhile Char.isAlpha := by
    rw [hlen]
    nth_rewrite 2 [← hsplit]
    rw [List.drop_left]
  rw [startsWithWord, htake, hfold, hdrop, beq_self_eq_true, Bool.true_and]
  -- Whatever follows the name, it does not continue the word.
  rcases hafter : text.dropWhile Char.isAlpha with _ | ⟨c, more⟩
  · rfl
  · show (!Text.continuesWord c) = true
    rw [hafter] at hbrace
    by_cases hb : isBlank c = true
    · rw [continuesWord_of_isBlank hb]
      rfl
    · rw [trimStart, List.dropWhile_cons_of_neg hb] at hbrace
      obtain rfl : c = '{' := Option.some.inj hbrace
      decide +kernel

theorem kind_of_header (hs : isSpecial cs = false) (h : header? cs = some (kind, key, rest)) :
    kind.map Char.toLower ∉ blockKinds := by
  obtain ⟨-, hkind, hbrace⟩ := header_form h
  intro hblock
  have hstarts : startsWithWord (kind.map Char.toLower) (trimStart cs) = true :=
    startsWithWord_of_takeWhile (hkind ▸ rfl) hbrace
  simp only [isSpecial, Bool.or_eq_false_iff] at hs
  rcases List.mem_cons.mp hblock with he | hblock
  · rw [he, hs.1.1] at hstarts
    exact Bool.noConfusion hstarts
  · rcases List.mem_cons.mp hblock with he | hblock
    · rw [he, hs.1.2] at hstarts
      exact Bool.noConfusion hstarts
    · rw [List.mem_singleton.mp hblock, hs.2] at hstarts
      exact Bool.noConfusion hstarts

/-! ## Classified lines -/

/-- The parts of a classified line were read by the pattern of its kind. -/
def LineKind.Matched : LineKind → Prop
  | .header kind key rest => ∃ cs, isSpecial cs = false ∧ header? cs = some (kind, key, rest)
  | .fieldStart name value => ∃ cs, field? cs = some (name, value)
  | .suppression check reason => ∃ cs, directive? cs = some (check, reason)
  | .blank | .comment | .special | .malformedHeader | .close | .text => True

theorem matched_classify (raw : List Char) : (classify raw).Matched := by
  unfold classify
  split
  · trivial
  · next cs _ =>
      split
      · next hdirective => exact ⟨cs, hdirective⟩
      · trivial
  · trivial
  · next cs _ =>
      split
      · trivial
      · next hspecial =>
          split
          · next hheader => exact ⟨cs, by simpa using hspecial, hheader⟩
          · trivial
  · next cs _ =>
      split
      · next hfield => exact ⟨_, hfield⟩
      · trivial

/-- The parts of a header line have their form. -/
structure HeaderForm (kind key : List Char) : Prop where
  kind_ne : kind ≠ []
  kind_letters : ∀ c ∈ kind, c.isAlpha = true
  kind_entry : kind.map Char.toLower ∉ blockKinds
  key_ne : key ≠ []
  key_chars : ∀ c ∈ key, isKeyChar c = true

theorem headerForm_of_classify (h : classify raw = .header kind key rest) :
    HeaderForm kind key := by
  have hmatched := matched_classify raw
  rw [h] at hmatched
  obtain ⟨cs, hspecial, hheader⟩ := hmatched
  obtain ⟨⟨hkind, hkey, hchars⟩, hletters, -⟩ := header_form hheader
  refine ⟨hkind, ?_, kind_of_header hspecial hheader, hkey, hchars⟩
  intro c hc
  rw [hletters] at hc
  exact List.mem_takeWhile_imp hc

theorem name_of_classify (h : classify raw = .fieldStart name value) : name ≠ [] := by
  have hmatched := matched_classify raw
  rw [h] at hmatched
  obtain ⟨cs, hfield⟩ := hmatched
  exact field_form hfield

theorem check_of_classify (h : classify raw = .suppression check reason) : check ≠ [] := by
  have hmatched := matched_classify raw
  rw [h] at hmatched
  obtain ⟨cs, hdirective⟩ := hmatched
  exact directive_form hdirective

end BibAudit.Bib
