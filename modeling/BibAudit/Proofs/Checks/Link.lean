/-
# BibAudit.Proofs.Checks.Link — the checks on identifiers and links.

Two checks share the entries: one compares the link of an entry that has an identifier, the other asks
for an identifier where there is none.  The first reads the values of the fields, the second only asks
whether the fields are there.  So the entries whose identifiers are there but read as nothing, such as
an empty brace group, are left to neither.

A document of the RFC series is known by its key, and both checks on it agree on its number: the DOI
that the one asks for is accepted by it, and the link that goes with this DOI is the text of the
document.
-/
import BibAudit.Checks.Link
import BibAudit.Proofs.Identifier
import BibAudit.Proofs.Value.Plain

namespace BibAudit

open Identifier (IsAbsent SpellsRfc rfcNumber? rfcDoi rfcUrl doiResolver urnResolver checkUrl)
open Text (isBlank trimString)

variable {e : Entry} {ctx : Context} {name value : String} {n : Nat}

/-! ## Fields that read as something -/

namespace Entry

/-- The field is there, and something is left when its value is read. -/
def Shows (e : Entry) (name : String) : Prop :=
  ∃ read, e.scanned? name = some read ∧ read.tokens ≠ []

/-- The field is there, but its value reads as nothing. -/
def IsHollow (e : Entry) (name : String) : Prop :=
  ∃ read, e.scanned? name = some read ∧ read.tokens = []

/-- A field is missing, or shows something, or is hollow. -/
theorem hasField_iff : e.hasField name = true ↔ e.Shows name ∨ e.IsHollow name := by
  have hread : e.hasField name = (e.scanned? name).isSome := by
    rw [scanned?, field?, Option.isSome_map, Option.isSome_map]
    rfl
  rw [hread, Option.isSome_iff_exists]
  constructor
  · rintro ⟨read, hread⟩
    by_cases hnone : read.tokens = []
    · exact .inr ⟨read, hread, hnone⟩
    · exact .inl ⟨read, hread, hnone⟩
  · rintro (⟨read, hread, -⟩ | ⟨read, hread, -⟩) <;> exact ⟨read, hread⟩

/-- The text of a field is missing or blank exactly if the field shows nothing. -/
theorem isAbsent_text? (e : Entry) (name : String) :
    IsAbsent (e.text? name) ↔ ¬ e.Shows name := by
  unfold text? Shows
  cases hfield : e.scanned? name with
  | none => simp [IsAbsent]
  | some read =>
      obtain ⟨raw, -, rfl⟩ := Option.map_eq_some_iff.mp hfield
      simp [IsAbsent, Value.blank_plainText]

/-- The links that the entry may carry. -/
def expectedUrls (e : Entry) : List String :=
  Identifier.expectedUrls (e.text? "doi") (e.text? "urn") e.key

theorem expectedUrls_eq_nil :
    e.expectedUrls = [] ↔ ¬ e.Shows "doi" ∧ ¬ e.Shows "urn" := by
  rw [expectedUrls, Identifier.expectedUrls_eq_nil, isAbsent_text?, isAbsent_text?]

/-! ## Fields written anew -/

/-- The fields with another value under a name: where the name has its value, or behind them all, at
the line given. -/
def putValue (name value : String) (line : Nat) : List (String × Field) → List (String × Field)
  | [] => [(name, ⟨value, line⟩)]
  | (other, old) :: rest =>
    if other == name then (name, ⟨value, old.line⟩) :: rest
    else (other, old) :: putValue name value line rest

/-- The entry with another value in a field. -/
def withField (e : Entry) (name value : String) : Entry :=
  { e with fields := putValue name value e.line e.fields }

theorem lookup_putValue (name value : String) (line : Nat) (fields : List (String × Field)) :
    ((putValue name value line fields).lookup name).map Field.value = some value := by
  induction fields with
  | nil => simp [putValue]
  | cons field rest ih =>
      obtain ⟨other, old⟩ := field
      unfold putValue
      split
      · simp
      · next hother =>
          have hname : (name == other) = false := by
            rw [beq_eq_false_iff_ne]
            rintro rfl
            exact hother (beq_self_eq_true name)
          rw [List.lookup_cons, hname]
          exact ih

theorem text?_withField (e : Entry) (name value : String) :
    (e.withField name value).text? name = some (Value.scanField value.toList).plainText := by
  have hfield : (e.withField name value).field? name = some value :=
    lookup_putValue name value e.line e.fields
  rw [text?, scanned?, hfield]
  rfl

end Entry

namespace Checks

/-! ## Missing identifiers -/

/-- There is one complaint or none. -/
def IsSingle (found : Findings) : Prop :=
  found = .ok [] ∨ ∃ c, found = .ok [c]

theorem IsSingle.complains_iff {found : Findings} (h : IsSingle found) :
    (∃ c, found = .ok [c]) ↔ found ≠ .ok [] := by
  rcases h with rfl | ⟨c, rfl⟩
  · simp
  · simp

theorem single_missingDoi (e : Entry) (ctx : Context) : IsSingle (missingDoi e ctx) := by
  unfold missingDoi
  split
  · exact .inl rfl
  · exact .inr ⟨_, rfl⟩

theorem single_uniformDoiUrl (e : Entry) (ctx : Context) : IsSingle (uniformDoiUrl e ctx) := by
  unfold uniformDoiUrl
  split
  · exact .inl rfl
  · exact .inr ⟨_, rfl⟩
  · exact .inr ⟨_, rfl⟩

theorem missingDoi_eq_nil : missingDoi e ctx = .ok [] ↔
    e.hasField "doi" = true ∨ e.hasField "urn" = true := by
  rw [← Bool.or_eq_true]
  unfold missingDoi
  split
  · next hfield => exact iff_of_true rfl hfield
  · next hnone => exact iff_of_false (by simp) hnone

theorem uniformDoiUrl_eq_nil : uniformDoiUrl e ctx = .ok [] ↔
    checkUrl (e.text? "doi") (e.text? "urn") e.key (e.text? "url") = none := by
  unfold uniformDoiUrl
  split
  · next hfound => exact iff_of_true rfl hfound
  · next hfound => simp [hfound]
  · next hfound => simp [hfound]

/-- An entry is asked for an identifier exactly if no link is expected of it and neither field is there
to read as nothing.  It is asked for another link exactly if some link is expected, and it has none of
these.  So no entry with an identifier is said to have none, and every such entry is compared; the one
gap is left by a field that is there but reads as nothing. -/
theorem missingDoi_exact (e : Entry) (ctx : Context) :
    (e.expectedUrls = [] ↔ ¬ e.Shows "doi" ∧ ¬ e.Shows "urn") ∧
      ((∃ c, missingDoi e ctx = .ok [c]) ↔
        e.expectedUrls = [] ∧ ¬ e.IsHollow "doi" ∧ ¬ e.IsHollow "urn") ∧
      (missingDoi e ctx = .ok [] ↔
        e.expectedUrls ≠ [] ∨ e.IsHollow "doi" ∨ e.IsHollow "urn") ∧
      ((∃ c, uniformDoiUrl e ctx = .ok [c]) ↔
        e.expectedUrls ≠ [] ∧ ∀ url, e.text? "url" = some url → trimString url ∉ e.expectedUrls) ∧
      (uniformDoiUrl e ctx = .ok [] ↔
        e.expectedUrls = [] ∨
          ∃ url, e.text? "url" = some url ∧ trimString url ∈ e.expectedUrls) := by
  have hfields : (e.hasField "doi" = true ∨ e.hasField "urn" = true) ↔
      e.expectedUrls ≠ [] ∨ e.IsHollow "doi" ∨ e.IsHollow "urn" := by
    rw [Ne, Entry.expectedUrls_eq_nil, Entry.hasField_iff, Entry.hasField_iff]
    tauto
  have hlink : checkUrl (e.text? "doi") (e.text? "urn") e.key (e.text? "url") = none ↔
      e.expectedUrls = [] ∨ ∃ url, e.text? "url" = some url ∧ trimString url ∈ e.expectedUrls := by
    rw [Identifier.checkUrl_eq_none, ← Identifier.expectedUrls_eq_nil e.key]
    rfl
  refine ⟨Entry.expectedUrls_eq_nil, ?_, ?_, ?_, ?_⟩
  · rw [(single_missingDoi e ctx).complains_iff, Ne, missingDoi_eq_nil, hfields]
    tauto
  · rw [missingDoi_eq_nil, hfields]
  · rw [(single_uniformDoiUrl e ctx).complains_iff, Ne, uniformDoiUrl_eq_nil, hlink]
    simp only [not_or, not_exists, not_and, ne_eq]
  · rw [uniformDoiUrl_eq_nil, hlink]

/-- A run over no entries. -/
def emptyContext : Context :=
  ⟨Bibliography.ofEntries [], none, none, false⟩

/-- An entry with an empty brace group for its DOI. -/
def hollowEntry : Entry :=
  ⟨"misc", "k", ⟨"refs.bib"⟩, 1, 3, [("doi", ⟨"\x7b\x7d", 2⟩)], []⟩

/-- No link is expected, yet no identifier is asked for. -/
theorem missingDoi_hollow :
    hollowEntry.expectedUrls = [] ∧ missingDoi hollowEntry emptyContext = .ok [] ∧
      ¬ ∀ e ctx, (∃ c, missingDoi e ctx = .ok [c]) ↔ e.expectedUrls = [] := by
  have hnone : hollowEntry.expectedUrls = [] := by decide
  have hsilent : missingDoi hollowEntry emptyContext = .ok [] :=
    missingDoi_eq_nil.mpr (.inl (by decide))
  refine ⟨hnone, hsilent, fun h => ?_⟩
  obtain ⟨c, hc⟩ := (h hollowEntry emptyContext).mpr hnone
  rw [hsilent] at hc
  cases hc

/-! ## Documents of the RFC series -/

theorem rfcDois_eq_nil : rfcDois e ctx = .ok [] ↔ ∀ n, rfcNumber? e.key = some n →
    ∃ doi, e.text? "doi" = some doi ∧ Text.lowerAscii doi = Text.lowerAscii (rfcDoi n) := by
  unfold rfcDois
  cases rfcNumber? e.key with
  | none => simp
  | some n =>
      cases e.text? "doi" with
      | none => simp
      | some doi =>
          by_cases hsame : Text.lowerAscii doi = Text.lowerAscii (rfcDoi n)
          · simp [hsame]
          · simp [hsame]

theorem toList_rfcDoi (n : Nat) :
    (rfcDoi n).toList = "10.17487/rfc".toList ++ (toString n).toList := by
  have hdoi : rfcDoi n = "10.17487/rfc" ++ toString n := rfl
  rw [hdoi, String.toList_append]

/-- A DOI of the series is one word, without braces and backslashes. -/
theorem plain_of_mem_rfcDoi {c : Char} (h : c ∈ (rfcDoi n).toList) :
    isBlank c = false ∧ c ≠ '\\' ∧ Value.isBrace c = false := by
  rw [toList_rfcDoi] at h
  rcases List.mem_append.mp h with hfront | hnumber
  · have hall : ("10.17487/rfc".toList.all fun c =>
        !isBlank c && c != '\\' && !Value.isBrace c) = true := by decide
    simpa [and_assoc] using List.all_eq_true.mp hall c hfront
  · have hnumeral := Text.isNumeral_toString n
    rw [Text.isNumeral, Bool.and_eq_true, List.all_eq_true] at hnumeral
    have hdigit := hnumeral.2 c hnumber
    obtain ⟨-, hle⟩ := Text.toNat_of_isDigit hdigit
    exact Text.forall_ascii
      (p := fun c => c.isDigit = true → isBlank c = false ∧ c ≠ '\\' ∧ Value.isBrace c = false)
      (by decide) (Nat.lt_of_le_of_lt hle (by decide)) hdigit

theorem rfcDoi_ne_nil (n : Nat) : (rfcDoi n).toList ≠ [] := by
  rw [toList_rfcDoi]
  simp

/-- The DOI of the series reads as itself in a brace group. -/
theorem plainText_rfcDoi (n : Nat) :
    (Value.scanField ("\x7b" ++ rfcDoi n ++ "\x7d").toList).plainText = rfcDoi n := by
  have hraw : ("\x7b" ++ rfcDoi n ++ "\x7d").toList = '{' :: ((rfcDoi n).toList ++ ['}']) := by
    rw [String.toList_append, String.toList_append]
    rfl
  rw [hraw, Value.plainText_braced (rfcDoi_ne_nil n) fun c => plain_of_mem_rfcDoi,
    String.ofList_toList]

/-- The entry with the DOI that the series asks for. -/
def withRfcDoi (e : Entry) (n : Nat) : Entry :=
  e.withField "doi" ("\x7b" ++ rfcDoi n ++ "\x7d")

theorem text?_withRfcDoi (e : Entry) (n : Nat) :
    (withRfcDoi e n).text? "doi" = some (rfcDoi n) := by
  rw [withRfcDoi, Entry.text?_withField, plainText_rfcDoi]

/-- With that DOI, the check on such DOIs is silent, and the text of the document is the first link
expected. -/
theorem repaired (h : rfcNumber? e.key = some n) :
    rfcDois (withRfcDoi e n) ctx = .ok [] ∧
      (withRfcDoi e n).expectedUrls.head? = some (rfcUrl n) := by
  have hnumber : rfcNumber? (withRfcDoi e n).key = some n := h
  constructor
  · rw [rfcDois_eq_nil]
    intro m hm
    rw [hnumber] at hm
    obtain rfl := Option.some.inj hm
    exact ⟨rfcDoi n, text?_withRfcDoi e n, rfl⟩
  · have hpresent : ¬ IsAbsent (some (rfcDoi n)) := by
      intro habsent
      obtain ⟨c, rest, hdoi⟩ := List.exists_cons_of_ne_nil (rfcDoi_ne_nil n)
      have hc : c ∈ (rfcDoi n).toList := hdoi ▸ List.mem_cons_self
      have hblank := habsent _ rfl c hc
      rw [(plain_of_mem_rfcDoi hc).1] at hblank
      cases hblank
    rw [Entry.expectedUrls, text?_withRfcDoi, Identifier.expectedUrls_some hpresent,
      Identifier.doiLink, hnumber]
    rfl

/-! ## Links -/

/-- A key has a number exactly if it is `rfc` and that number, in whatever capitals and with whatever
zeros in front, and the number fits 32 bits.  A link is accepted exactly if no identifier counts, or if
it is expected once its blanks are taken off; the blanks around an expected link do not matter.  A DOI
that counts has its own link, in front of that of the URN: the text of the document if the key has a
number, the resolver with the trimmed DOI if it has none, as when the number takes more than 32 bits.
An entry whose DOI is not that of its number is settled by writing that DOI, whose link is then the
text of the document. -/
theorem canonicalLinks (key : String) (n : Nat) (doi urn url : Option String) (e : Entry)
    (ctx : Context) :
    (rfcNumber? key = some n ↔ SpellsRfc key n ∧ n < 2 ^ 32) ∧
      (SpellsRfc key n → 2 ^ 32 ≤ n → rfcNumber? key = none) ∧
      (checkUrl doi urn key url = none ↔ (IsAbsent doi ∧ IsAbsent urn) ∨
        ∃ actual, url = some actual ∧ trimString actual ∈ Identifier.expectedUrls doi urn key) ∧
      (∀ link ∈ Identifier.expectedUrls doi urn key, ∀ front back,
        (∀ c ∈ front, isBlank c = true) → (∀ c ∈ back, isBlank c = true) →
          checkUrl doi urn key (some (String.ofList (front ++ (link.toList ++ back)))) = none) ∧
      (∀ raw, doi = some raw → ¬ IsAbsent doi → ∃ link,
        Identifier.expectedUrls doi urn key = link :: Identifier.expectedUrls none urn key ∧
          (∀ n, rfcNumber? key = some n →
            link = "https://tools.ietf.org/rfc/rfc" ++ toString n ++ ".txt") ∧
          (rfcNumber? key = none → link = "https://dx.doi.org/" ++ trimString raw)) ∧
      (rfcDois e ctx ≠ .ok [] → ∃ n, rfcNumber? e.key = some n ∧
        rfcDois (withRfcDoi e n) ctx = .ok [] ∧
          (withRfcDoi e n).expectedUrls.head? = some (rfcUrl n)) := by
  refine ⟨Identifier.rfcNumber?_eq_some, Identifier.rfcNumber?_eq_none_of_le,
    Identifier.checkUrl_eq_none, ?_, ?_, ?_⟩
  · intro link hlink front back hfront hback
    exact Identifier.checkUrl_padded hlink hfront hback
  · rintro raw rfl hraw
    refine ⟨Identifier.doiLink (trimString raw) key, Identifier.expectedUrls_some hraw urn key, ?_, ?_⟩
    · intro n hn
      rw [Identifier.doiLink, hn]
      rfl
    · intro hnone
      rw [Identifier.doiLink, hnone]
      rfl
  · intro hcomplains
    cases hnumber : rfcNumber? e.key with
    | none =>
        refine absurd (rfcDois_eq_nil.mpr fun n hn => ?_) hcomplains
        rw [hnumber] at hn
        cases hn
    | some n => exact ⟨n, rfl, repaired hnumber⟩

/-- A document of the series, with a DOI that is not of the series. -/
def rfcEntry : Entry :=
  ⟨"misc", "RFC0042", ⟨"refs.bib"⟩, 1, 3, [("doi", ⟨"\x7b10.1/x\x7d", 2⟩)], []⟩

theorem canonicalLinks_rfc :
    (SpellsRfc "RFC0042" 42 ∧ rfcNumber? "RFC0042" = some 42) ∧
      (SpellsRfc "rfc4294967296" 4294967296 ∧ rfcNumber? "rfc4294967296" = none) ∧
      checkUrl (some " 10.1/x") none "RFC0042"
        (some " https://tools.ietf.org/rfc/rfc42.txt\n") = none ∧
      (¬ IsAbsent (some " 10.1/x") ∧ Identifier.expectedUrls (some " 10.1/x") none "rfc4294967296" =
        ["https://dx.doi.org/" ++ trimString " 10.1/x"]) ∧
      rfcDois rfcEntry emptyContext ≠ .ok [] ∧
        rfcDois (withRfcDoi rfcEntry 42) emptyContext = .ok [] := by
  have hsmall : SpellsRfc "RFC0042" 42 := ⟨"RFC".toList, 2, by decide, by decide⟩
  have hlarge : SpellsRfc "rfc4294967296" 4294967296 := ⟨"rfc".toList, 0, by decide, by decide⟩
  have hpresent : ¬ IsAbsent (some " 10.1/x") := by
    intro habsent
    exact absurd (habsent _ rfl '1' (by decide)) (by decide)
  have hlink : "https://tools.ietf.org/rfc/rfc42.txt" ∈
      Identifier.expectedUrls (some " 10.1/x") none "RFC0042" := by decide
  have hread : rfcEntry.text? "doi" = some "10.1/x" := by decide
  have hcomplains : rfcDois rfcEntry emptyContext ≠ .ok [] := by
    intro hsilent
    obtain ⟨doi, hdoi, hsame⟩ := rfcDois_eq_nil.mp hsilent 42 (by decide)
    rw [hread] at hdoi
    obtain rfl := Option.some.inj hdoi
    exact absurd hsame (by decide)
  obtain ⟨hnumber, -, -, hpadded, -, hrepaired⟩ :=
    canonicalLinks "RFC0042" 42 (some " 10.1/x") none none rfcEntry emptyContext
  obtain ⟨-, htoolarge, -, -, hdoi, -⟩ :=
    canonicalLinks "rfc4294967296" 4294967296 (some " 10.1/x") none none rfcEntry emptyContext
  have hnone := htoolarge hlarge (by decide)
  obtain ⟨link, hexpected, -, hresolver⟩ := hdoi " 10.1/x" rfl hpresent
  obtain ⟨n, hn, hsilent, -⟩ := hrepaired hcomplains
  obtain rfl : n = 42 := Option.some.inj (hn.symm.trans (hnumber.mpr ⟨hsmall, by decide⟩))
  refine ⟨⟨hsmall, hnumber.mpr ⟨hsmall, by decide⟩⟩, ⟨hlarge, hnone⟩, ?_, ⟨hpresent, ?_⟩,
    hcomplains, hsilent⟩
  · exact hpadded _ hlink [' '] ['\n'] (List.forall_mem_singleton.mpr rfl)
      (List.forall_mem_singleton.mpr rfl)
  · rw [hexpected, hresolver hnone]
    rfl

end Checks

end BibAudit
