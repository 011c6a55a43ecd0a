/-
# BibAudit.Proofs.Identifier — keys of the RFC series, and the links of identifiers.

A key of the series is spelled with a number: `rfc` in capitals or small letters, any zeros, and the
number as it is printed.  A number that takes more than 32 bits is no number of the series, and an
entry with such a key links the resolver of its DOI as any other entry does.

An identifier counts unless it is missing or blank.  Each one that counts has one link, without blanks
at its ends, so a link is found again whatever blanks stand around it.
-/
import BibAudit.Identifier
import BibAudit.Proofs.Text.Digits
import BibAudit.Proofs.Text.Trim
import Mathlib.Algebra.Group.Nat.Defs
import Mathlib.Data.List.Basic

namespace BibAudit.Identifier

open Text (Tight isBlank isNumeral decimalValue trim trimString)

variable {key actual link raw : String} {doi urn id url : Option String} {n m : Nat}

/-! ## Keys -/

/-- The key is `rfc`, in capitals or small letters, and the number, with zeros in front or without. -/
def SpellsRfc (key : String) (n : Nat) : Prop :=
  ∃ letters zeros, key.toList = letters ++ (List.replicate zeros '0' ++ (toString n).toList) ∧
    letters.map Char.toLower = "rfc".toList

theorem spellsRfc_iff : SpellsRfc key n ↔ ∃ r f c digits, key.toList = r :: f :: c :: digits ∧
    [r, f, c].map Char.toLower = "rfc".toList ∧ isNumeral digits = true ∧
      decimalValue digits = n := by
  constructor
  · rintro ⟨letters, zeros, hkey, hletters⟩
    have hlength : letters.length = 3 := by
      rw [← List.length_map (f := Char.toLower), hletters]
      rfl
    obtain ⟨r, f, c, rfl⟩ := List.length_eq_three.mp hlength
    obtain ⟨hnumeral, hvalue⟩ := Text.isNumeral_and_value_iff.mpr ⟨zeros, rfl⟩
    exact ⟨r, f, c, _, hkey, hletters, hnumeral, hvalue⟩
  · rintro ⟨r, f, c, digits, hkey, hletters, hnumeral, hvalue⟩
    obtain ⟨zeros, rfl⟩ := Text.isNumeral_and_value_iff.mp ⟨hnumeral, hvalue⟩
    exact ⟨[r, f, c], zeros, hkey, hletters⟩

/-- A key is spelled with one number only. -/
theorem SpellsRfc.unique (hn : SpellsRfc key n) (hm : SpellsRfc key m) : n = m := by
  obtain ⟨r, f, c, digits, hkey, -, -, rfl⟩ := spellsRfc_iff.mp hn
  obtain ⟨r', f', c', digits', hkey', -, -, rfl⟩ := spellsRfc_iff.mp hm
  rw [hkey'] at hkey
  simp only [List.cons.injEq] at hkey
  rw [hkey.2.2.2]

theorem rfcNumber?_eq_some : rfcNumber? key = some n ↔ SpellsRfc key n ∧ n < 2 ^ 32 := by
  have hlimit : Text.countLimit = 2 ^ 32 := rfl
  rw [spellsRfc_iff, rfcNumber?]
  constructor
  · intro h
    split at h
    · next r f c digits hkey =>
        split at h
        · next hcond =>
            rw [Bool.and_eq_true, Bool.and_eq_true, beq_iff_eq, decide_eq_true_eq, hlimit] at hcond
            obtain rfl := Option.some.inj h
            exact ⟨⟨r, f, c, digits, hkey, hcond.1.1, hcond.1.2, rfl⟩, hcond.2⟩
        · cases h
    · cases h
  · rintro ⟨⟨r, f, c, digits, hkey, hletters, hnumeral, rfl⟩, hfits⟩
    simp only [hkey, hletters, hnumeral, hlimit, hfits]
    rfl

/-- A number that takes more than 32 bits does not count. -/
theorem rfcNumber?_eq_none_of_le (h : SpellsRfc key n) (hn : 2 ^ 32 ≤ n) :
    rfcNumber? key = none := by
  rw [Option.eq_none_iff_forall_ne_some]
  intro m hm
  obtain ⟨hkey, hfits⟩ := rfcNumber?_eq_some.mp hm
  have hsame := h.unique hkey
  omega

/-! ## Identifiers -/

/-- The identifier is missing, or there is nothing but blanks in it. -/
def IsAbsent (id : Option String) : Prop :=
  ∀ raw ∈ id, ∀ c ∈ raw.toList, isBlank c = true

theorem isEmpty_trimString :
    (trimString raw).isEmpty = true ↔ ∀ c ∈ raw.toList, isBlank c = true := by
  rw [← Text.trim_eq_nil, trimString, String.isEmpty_iff, ← String.toList_inj, String.toList_ofList]
  rfl

theorem usable?_eq_none : usable? id = none ↔ IsAbsent id := by
  cases id with
  | none => exact iff_of_true rfl fun raw h => absurd h (by simp)
  | some raw =>
      have hfilter : usable? (some raw) = none ↔ (trimString raw).isEmpty = true := by
        simp [usable?]
      rw [hfilter, isEmpty_trimString]
      simp [IsAbsent]

theorem usable?_of_not_absent (h : ¬ IsAbsent (some raw)) :
    usable? (some raw) = some (trimString raw) := by
  have hfilled : (trimString raw).isEmpty = false := by
    rw [← Bool.not_eq_true, isEmpty_trimString]
    exact fun hblank => h fun r hr => Option.some.inj hr ▸ hblank
  simp [usable?, hfilled]

/-! ## Expected links -/

/-- The link that a DOI asks for. -/
def doiLink (doi key : String) : String :=
  match rfcNumber? key with
  | some n => rfcUrl n
  | none => doiResolver ++ doi

/-- The links of both identifiers, that of the DOI first. -/
theorem expectedUrls_eq (doi urn : Option String) (key : String) : expectedUrls doi urn key =
    (usable? doi).toList.map (doiLink · key) ++ (usable? urn).toList.map (urnResolver ++ ·) :=
  rfl

theorem expectedUrls_eq_nil (key : String) :
    expectedUrls doi urn key = [] ↔ IsAbsent doi ∧ IsAbsent urn := by
  rw [expectedUrls_eq, List.append_eq_nil_iff, List.map_eq_nil_iff, List.map_eq_nil_iff,
    ← usable?_eq_none, ← usable?_eq_none]
  simp

theorem expectedUrls_some (h : ¬ IsAbsent (some raw)) (urn : Option String) (key : String) :
    expectedUrls (some raw) urn key = doiLink (trimString raw) key :: expectedUrls none urn key := by
  rw [expectedUrls_eq, expectedUrls_eq, usable?_of_not_absent h]
  rfl

/-- What is left of an identifier is tight, and a resolver in front of it begins with a letter. -/
theorem tight_resolver {resolver : String} (hr : Tight resolver.toList) (hne : resolver.toList ≠ [])
    (h : usable? id = some raw) : Tight (resolver ++ raw).toList := by
  obtain ⟨whole, hid, rfl⟩ : ∃ whole, id = some whole ∧ raw = trimString whole := by
    cases id with
    | none => cases h
    | some whole =>
        have hpresent : ¬ IsAbsent (some whole) := by
          rw [← usable?_eq_none, h]
          exact Option.some_ne_none raw
        rw [usable?_of_not_absent hpresent] at h
        exact ⟨whole, rfl, (Option.some.inj h).symm⟩
  have htight : Tight (trimString whole).toList := by
    rw [trimString, String.toList_ofList]
    exact Text.tight_trim whole.toList
  rw [String.toList_append]
  by_cases hempty : (trimString whole).toList = []
  · rw [hempty, List.append_nil]
    exact hr
  · have happend := hr.append htight hne hempty []
    rw [List.append_nil] at happend
    exact happend

theorem tight_around {front back : String} (hf : Tight front.toList) (hb : Tight back.toList)
    (hfront : front.toList ≠ []) (hback : back.toList ≠ []) (middle : String) :
    Tight (front ++ middle ++ back).toList := by
  rw [String.toList_append, String.toList_append]
  exact hf.append hb hfront hback middle.toList

theorem tight_rfcUrl (n : Nat) : Tight (rfcUrl n).toList := by
  have hurl : rfcUrl n = "https://tools.ietf.org/rfc/rfc" ++ toString n ++ ".txt" := rfl
  rw [hurl]
  exact tight_around (by decide) (by decide) (by decide) (by decide) (toString n)

/-- No link has a blank at its ends. -/
theorem tight_of_mem_expectedUrls (h : link ∈ expectedUrls doi urn key) : Tight link.toList := by
  rw [expectedUrls_eq] at h
  rcases List.mem_append.mp h with hdoi | hurn
  · obtain ⟨d, hd, rfl⟩ := List.mem_map.mp hdoi
    unfold doiLink
    split
    · next n _ => exact tight_rfcUrl n
    · exact tight_resolver (by decide) (by decide) (by simpa using hd)
  · obtain ⟨u, hu, rfl⟩ := List.mem_map.mp hurn
    exact tight_resolver (by decide) (by decide) (by simpa using hu)

/-! ## Links compared -/

theorem checkUrl_eq_none : checkUrl doi urn key url = none ↔
    (IsAbsent doi ∧ IsAbsent urn) ∨
      ∃ actual, url = some actual ∧ trimString actual ∈ expectedUrls doi urn key := by
  rw [← expectedUrls_eq_nil key, checkUrl]
  cases url with
  | none => simp
  | some actual =>
      by_cases hempty : expectedUrls doi urn key = []
      · simp [hempty]
      · simp [hempty]

/-- An expected link is accepted, whatever blanks stand around it. -/
theorem checkUrl_padded (h : link ∈ expectedUrls doi urn key) {front back : List Char}
    (hfront : ∀ c ∈ front, isBlank c = true) (hback : ∀ c ∈ back, isBlank c = true) :
    checkUrl doi urn key (some (String.ofList (front ++ (link.toList ++ back)))) = none := by
  have htrim : trimString (String.ofList (front ++ (link.toList ++ back))) = link := by
    rw [trimString, String.toList_ofList, Text.trim_blanks_append hfront,
      Text.trim_append_blanks hback, (tight_of_mem_expectedUrls h).trim_eq, String.ofList_toList]
  exact checkUrl_eq_none.mpr (.inr ⟨_, rfl, htrim.symm ▸ h⟩)

end BibAudit.Identifier
