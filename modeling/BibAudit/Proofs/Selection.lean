/-
# BibAudit.Proofs.Selection — the last mention decides.

An expression is read from left to right against a set that starts empty.  What comes of it is told
here without the set.  A check is selected exactly if some token mentions it, by its name or through
a group, and the last such token adds it.  A token whose name stands for nothing ends the reading, and
the first such token is the one that is reported.  So, of two expressions with a colon between them,
the first one decides about those checks only that the second one never mentions.
-/
import BibAudit.Proofs.Text.Case
import BibAudit.Proofs.Text.Lines
import BibAudit.Selection
import Mathlib.Tactic.Tauto

namespace BibAudit.Selection

variable {expression : String} {name : List Char} {m : Mention} {ms : List Mention}
variable {s t : CheckSet} {c : Check} {e : SelectionError}

/-! ## What a name stands for -/

/-- A word that stands for several checks. -/
inductive Group
  | all
  | default
  | bib
  | tex
deriving DecidableEq

/-- How a group is written. -/
def Group.word : Group → String
  | all => "ALL"
  | default => "DEFAULT"
  | bib => "BIB"
  | tex => "TEX"

/-- The checks of a group. -/
def Group.has : Group → Check → Bool
  | all, _ => true
  | default, c => c.byDefault
  | bib, c => c.domain == .bib
  | tex, c => c.domain == .tex

/-- The name is this word, ASCII case apart. -/
def SameName (name : List Char) (word : String) : Prop :=
  name.map Char.toLower = word.toList.map Char.toLower

instance (name : List Char) (word : String) : Decidable (SameName name word) :=
  inferInstanceAs (Decidable (_ = _))

/-- The name is that of the check, or of a group that has it. -/
def StandsFor (name : List Char) (c : Check) : Prop :=
  SameName name c.name ∨ ∃ g : Group, SameName name g.word ∧ g.has c = true

/-- The name is that of a check or of a group. -/
def IsKnown (name : List Char) : Prop :=
  (∃ c : Check, SameName name c.name) ∨ ∃ g : Group, SameName name g.word

theorem lowerAscii_name (c : Check) : Text.lowerAscii c.name = c.name := by
  cases c <;> decide

theorem sameName_iff {word : String} :
    SameName name word ↔ Text.lowerAscii (String.ofList name) = Text.lowerAscii word := by
  rw [SameName, Text.lowerAscii, Text.lowerAscii, String.ofList_inj, String.toList_ofList]

theorem sameName_check :
    SameName name c.name ↔ Text.lowerAscii (String.ofList name) = c.name := by
  rw [sameName_iff, lowerAscii_name]

theorem named?_name (c : Check) : named? c.name = some [c] := by
  cases c <;> decide

theorem named?_word (g : Group) : named? (Text.lowerAscii g.word) = some (Check.all.filter g.has) := by
  cases g <;> decide

theorem word_ne_name (g : Group) (c : Check) : Text.lowerAscii g.word ≠ c.name := by
  cases g <;> cases c <;> decide

theorem word_injective {g g' : Group} (h : Text.lowerAscii g.word = Text.lowerAscii g'.word) :
    g = g' := by
  revert h
  cases g <;> cases g' <;> decide

theorem named?_isSome {small : String} (h : (named? small).isSome = true) :
    (∃ c : Check, small = c.name) ∨ ∃ g : Group, small = Text.lowerAscii g.word := by
  unfold named? at h
  split at h
  · next hall => exact .inr ⟨.all, (beq_iff_eq.mp hall).trans (by decide)⟩
  · split at h
    · next hdefault => exact .inr ⟨.default, (beq_iff_eq.mp hdefault).trans (by decide)⟩
    · split at h
      · next hbib => exact .inr ⟨.bib, (beq_iff_eq.mp hbib).trans (by decide)⟩
      · split at h
        · next htex => exact .inr ⟨.tex, (beq_iff_eq.mp htex).trans (by decide)⟩
        · rw [Option.isSome_map] at h
          obtain ⟨c, hc⟩ := Option.isSome_iff_exists.mp h
          have hname := List.find?_some hc
          exact .inl ⟨c, (beq_iff_eq.mp hname).symm⟩

/-- A known name stands for the checks that are looked up under it, and for no others. -/
theorem named?_of_isKnown (h : IsKnown name) :
    ∃ checks, named? (Text.lowerAscii (String.ofList name)) = some checks ∧
      ∀ c, c ∈ checks ↔ StandsFor name c := by
  rcases h with ⟨d, hd⟩ | ⟨g, hg⟩
  · have hsmall := sameName_check.mp hd
    refine ⟨[d], by rw [hsmall, named?_name], fun c => ?_⟩
    rw [List.mem_singleton]
    constructor
    · rintro rfl
      exact .inl hd
    · rintro (hc | ⟨g, hg, -⟩)
      · exact Check.name_injective ((sameName_check.mp hc).symm.trans hsmall)
      · exact absurd ((sameName_iff.mp hg).symm.trans hsmall) (word_ne_name g d)
  · have hsmall := sameName_iff.mp hg
    refine ⟨Check.all.filter g.has, by rw [hsmall, named?_word], fun c => ?_⟩
    rw [List.mem_filter, and_iff_right (Check.mem_all c)]
    constructor
    · exact fun hc => .inr ⟨g, hg, hc⟩
    · rintro (hc | ⟨g', hg', hc⟩)
      · exact absurd (hsmall.symm.trans (sameName_check.mp hc)) (word_ne_name g c)
      · rwa [word_injective (hsmall.symm.trans (sameName_iff.mp hg'))]

theorem named?_of_not_isKnown (h : ¬ IsKnown name) :
    named? (Text.lowerAscii (String.ofList name)) = none := by
  rw [← Option.not_isSome_iff_eq_none]
  intro hsome
  rcases named?_isSome hsome with ⟨c, hc⟩ | ⟨g, hg⟩
  · exact h (.inl ⟨c, sameName_check.mpr hc⟩)
  · exact h (.inr ⟨g, sameName_iff.mpr hg⟩)

theorem not_isKnown_nil : ¬ IsKnown [] := by
  rintro (⟨c, hc⟩ | ⟨g, hg⟩)
  · revert hc
    cases c <;> decide
  · revert hg
    cases g <;> decide

/-! ## Tokens -/

/-- What stands between colons, trimmed, unless nothing is left of it. -/
def tokens (expression : String) : List (List Char) :=
  ((Text.splitWhere (· == ':') expression.toList).map Text.trim).filter fun token => !token.isEmpty

/-- A token takes away if a minus stands in front, and else it adds. -/
def Adds (token : List Char) : Prop :=
  token.head? ≠ some '-'

/-- What stands behind the operator of a token, or the token if it has none. -/
def subject (token : List Char) : List Char :=
  Text.trim (if token.head? = some '+' ∨ token.head? = some '-' then token.tail else token)

/-- The name of the token stands for the check. -/
def Mentions (token : List Char) (c : Check) : Prop :=
  StandsFor (subject token) c

/-- An operator without a name, or a name that stands for nothing. -/
def Faulty (token : List Char) : Prop :=
  subject token = [] ∨ ¬ IsKnown (subject token)

/-- What is reported of a faulty token. -/
def faultOf (expression : String) (token : List Char) : SelectionError :=
  if subject token = [] then .missingName expression
  else .unknownCheck (String.ofList (subject token)) expression

theorem mentions_eq (expression : String) :
    mentions expression = (tokens expression).map Mention.ofToken := rfl

theorem trim_of_mem_tokens {token : List Char} (h : token ∈ tokens expression) :
    Text.trim token = token := by
  obtain ⟨piece, -, rfl⟩ := List.mem_map.mp (List.mem_filter.mp h).1
  exact Text.trim_trim piece

theorem name_ofToken {token : List Char} (h : Text.trim token = token) :
    (Mention.ofToken token).name = subject token := by
  fun_cases Mention.ofToken token with
  | case1 rest => simp [subject]
  | case2 rest => simp [subject]
  | case3 token hplus hminus =>
      have hhead : ¬ (token.head? = some '+' ∨ token.head? = some '-') := by
        rintro (hc | hc)
        · obtain ⟨rest, rfl⟩ := List.head?_eq_some_iff.mp hc
          exact hplus rest rfl
        · obtain ⟨rest, rfl⟩ := List.head?_eq_some_iff.mp hc
          exact hminus rest rfl
      rw [subject, if_neg hhead, h]

theorem adds_ofToken (token : List Char) : (Mention.ofToken token).adds = true ↔ Adds token := by
  fun_cases Mention.ofToken token with
  | case1 rest => simp [Adds]
  | case2 rest => simp [Adds]
  | case3 token hplus hminus =>
      refine iff_of_true rfl fun hc => ?_
      obtain ⟨rest, rfl⟩ := List.head?_eq_some_iff.mp hc
      exact hminus rest rfl

theorem tokens_append (a b : String) : tokens (a ++ ":" ++ b) = tokens a ++ tokens b := by
  have hchars : (a ++ ":" ++ b).toList = a.toList ++ ':' :: b.toList := by
    simp [String.toList_append]
  rw [tokens, hchars, Text.splitWhere_concat rfl, List.map_append, List.filter_append]
  rfl

/-! ## One mention -/

theorem checks_of_isKnown (expression : String) (h : IsKnown m.name) :
    ∃ checks, m.checks expression = .ok checks ∧ ∀ c, c ∈ checks ↔ StandsFor m.name c := by
  obtain ⟨checks, hnamed, hmem⟩ := named?_of_isKnown h
  have hne : m.name.isEmpty = false := by
    rw [Bool.eq_false_iff, ne_eq, List.isEmpty_iff]
    rintro hnil
    exact not_isKnown_nil (hnil ▸ h)
  refine ⟨checks, ?_, hmem⟩
  simp [Mention.checks, hne, hnamed]

theorem checks_of_not_isKnown (h : ¬ IsKnown m.name) : m.checks expression =
    .error (if m.name = [] then .missingName expression
      else .unknownCheck (String.ofList m.name) expression) := by
  have hnamed := named?_of_not_isKnown h
  by_cases hnil : m.name = []
  · simp [Mention.checks, hnil]
  · simp [Mention.checks, hnil, hnamed]

/-- A mention changes what the set says of the checks that it is about, and of no others. -/
theorem mem_after {checks : List Check} (h : c ∈ checks ↔ StandsFor m.name c) :
    (if m.adds then s.add checks else s.remove checks) c = true ↔
      (StandsFor m.name c ∧ m.adds = true) ∨ (¬ StandsFor m.name c ∧ s c = true) := by
  rw [← h]
  cases m.adds with
  | true =>
      simp only [if_true, CheckSet.add, Bool.or_eq_true, List.contains_iff_mem]
      tauto
  | false =>
      simp only [Bool.false_eq_true, if_false, CheckSet.remove, Bool.and_eq_true,
        Bool.not_eq_true', Bool.eq_false_iff, ne_eq, List.contains_iff_mem]
      tauto

/-! ## Mentions in a row -/

/-- The last item that is about the matter adds it. -/
def LastAdds {α : Type} (about adds : α → Prop) (items : List α) : Prop :=
  ∃ before item after, items = before ++ item :: after ∧ about item ∧ adds item ∧
    ∀ other ∈ after, ¬ about other

section LastAdds

variable {α β : Type} {about adds : α → Prop} {item : α} {items others : List α}

theorem not_lastAdds_nil : ¬ LastAdds about adds [] := by
  rintro ⟨before, item, after, heq, -⟩
  simp at heq

theorem lastAdds_cons : LastAdds about adds (item :: items) ↔
    LastAdds about adds items ∨ (about item ∧ adds item ∧ ∀ other ∈ items, ¬ about other) := by
  constructor
  · rintro ⟨before, found, after, heq, habout, hadds, hafter⟩
    rcases List.cons_eq_append_iff.mp heq with ⟨rfl, hcons⟩ | ⟨front, rfl, hitems⟩
    · obtain ⟨rfl, rfl⟩ := List.cons.inj hcons
      exact .inr ⟨habout, hadds, hafter⟩
    · exact .inl ⟨front, found, after, hitems, habout, hadds, hafter⟩
  · rintro (⟨before, found, after, rfl, hlast⟩ | ⟨habout, hadds, hafter⟩)
    · exact ⟨item :: before, found, after, rfl, hlast⟩
    · exact ⟨[], item, items, rfl, habout, hadds, hafter⟩

/-- Items that follow decide alone if one of them is about the matter. -/
theorem lastAdds_append : LastAdds about adds (items ++ others) ↔
    LastAdds about adds others ∨ (LastAdds about adds items ∧ ∀ other ∈ others, ¬ about other) := by
  induction items with
  | nil => simp [not_lastAdds_nil]
  | cons item rest ih =>
      rw [List.cons_append, lastAdds_cons, ih, lastAdds_cons, List.forall_mem_append]
      tauto

theorem exists_about_of_lastAdds (h : LastAdds about adds items) : ∃ item ∈ items, about item := by
  obtain ⟨before, item, after, rfl, habout, -⟩ := h
  exact ⟨item, by simp, habout⟩

theorem lastAdds_map {f : β → α} {items : List β} : LastAdds about adds (items.map f) ↔
    LastAdds (fun item => about (f item)) (fun item => adds (f item)) items := by
  induction items with
  | nil => exact iff_of_false not_lastAdds_nil not_lastAdds_nil
  | cons item rest ih => rw [List.map_cons, lastAdds_cons, lastAdds_cons, ih, List.forall_mem_map]

theorem lastAdds_congr {about' adds' : α → Prop}
    (h : ∀ item ∈ items, (about item ↔ about' item) ∧ (adds item ↔ adds' item)) :
    LastAdds about adds items ↔ LastAdds about' adds' items := by
  induction items with
  | nil => exact iff_of_false not_lastAdds_nil not_lastAdds_nil
  | cons item rest ih =>
      obtain ⟨hitem, hrest⟩ := List.forall_mem_cons.mp h
      have hnone : (∀ other ∈ rest, ¬ about other) ↔ ∀ other ∈ rest, ¬ about' other :=
        forall₂_congr fun other hother => not_congr (hrest other hother).1
      rw [lastAdds_cons, lastAdds_cons, ih hrest, hitem.1, hitem.2, hnone]

end LastAdds

/-- Known mentions can all be applied.  The last one about a check decides on it; where none is about
it, the set is as before. -/
theorem apply_of_isKnown (expression : String) (h : ∀ m ∈ ms, IsKnown m.name) (s : CheckSet) :
    ∃ t, apply expression s ms = .ok t ∧ ∀ c, t c = true ↔
      LastAdds (fun m : Mention => StandsFor m.name c) (fun m => m.adds = true) ms ∨
        (s c = true ∧ ∀ m ∈ ms, ¬ StandsFor m.name c) := by
  induction ms generalizing s with
  | nil => exact ⟨s, rfl, fun c => by simp [not_lastAdds_nil]⟩
  | cons m rest ih =>
      obtain ⟨checks, hchecks, hmem⟩ := checks_of_isKnown expression (h m List.mem_cons_self)
      obtain ⟨t, ht, hlast⟩ := ih (fun n hn => h n (List.mem_cons_of_mem m hn))
        (if m.adds then s.add checks else s.remove checks)
      refine ⟨t, by rw [apply, hchecks]; exact ht, fun c => ?_⟩
      rw [hlast, mem_after (hmem c), lastAdds_cons, List.forall_mem_cons]
      tauto

/-- The first mention that stands for nothing ends the reading. -/
theorem apply_of_not_isKnown {before after : List Mention} (hb : ∀ n ∈ before, IsKnown n.name)
    (hm : ¬ IsKnown m.name) (s : CheckSet) : apply expression s (before ++ m :: after) =
      .error (if m.name = [] then .missingName expression
        else .unknownCheck (String.ofList m.name) expression) := by
  induction before generalizing s with
  | nil => rw [List.nil_append, apply, checks_of_not_isKnown hm]
  | cons n rest ih =>
      obtain ⟨checks, hchecks, -⟩ := checks_of_isKnown expression (hb n List.mem_cons_self)
      rw [List.cons_append, apply, hchecks]
      exact ih (fun k hk => hb k (List.mem_cons_of_mem n hk)) _

/-! ## Whole expressions -/

theorem faulty_iff {token : List Char} : Faulty token ↔ ¬ IsKnown (subject token) := by
  constructor
  · rintro (hnil | hunknown)
    · exact hnil ▸ not_isKnown_nil
    · exact hunknown
  · exact .inr

/-- Either all tokens can be read, or there is a first one that cannot. -/
theorem exists_first_faulty (expression : String) : (∀ token ∈ tokens expression, ¬ Faulty token) ∨
    ∃ before token after, tokens expression = before ++ token :: after ∧
      (∀ t ∈ before, ¬ Faulty t) ∧ Faulty token := by
  classical
  rcases hfound : (tokens expression).find? (fun token => decide (Faulty token)) with _ | token
  · refine .inl fun token ht => ?_
    simpa using List.find?_eq_none.mp hfound token ht
  · obtain ⟨hfaulty, before, after, hsplit, hbefore⟩ := List.find?_eq_some_iff_append.mp hfound
    exact .inr ⟨before, token, after, hsplit, fun t ht => by simpa using hbefore t ht,
      of_decide_eq_true hfaulty⟩

theorem parse_of_faulty {before after : List (List Char)} {token : List Char}
    (hsplit : tokens expression = before ++ token :: after) (hb : ∀ t ∈ before, ¬ Faulty t)
    (ht : Faulty token) : parse expression = .error (faultOf expression token) := by
  have htrim : ∀ t ∈ tokens expression, (Mention.ofToken t).name = subject t :=
    fun t h => name_ofToken (trim_of_mem_tokens h)
  have htoken : (Mention.ofToken token).name = subject token := htrim token (by simp [hsplit])
  rw [parse, mentions_eq, hsplit, List.map_append, List.map_cons, apply_of_not_isKnown]
  · rw [htoken, faultOf]
  · intro n hn
    obtain ⟨t, hmem, rfl⟩ := List.mem_map.mp hn
    rw [htrim t (by rw [hsplit]; exact List.mem_append_left _ hmem)]
    exact Classical.not_not.mp fun hunknown => hb t hmem (faulty_iff.mpr hunknown)
  · rw [htoken]
    exact faulty_iff.mp ht

/-- Tokens without a fault select the checks that the last token about them adds. -/
theorem parse_of_not_faulty (h : ∀ token ∈ tokens expression, ¬ Faulty token) :
    ∃ s, parse expression = .ok s ∧
      ∀ c, s c = true ↔ LastAdds (Mentions · c) Adds (tokens expression) := by
  have hname : ∀ token ∈ tokens expression, (Mention.ofToken token).name = subject token :=
    fun token ht => name_ofToken (trim_of_mem_tokens ht)
  have hknown : ∀ m ∈ mentions expression, IsKnown m.name := by
    rw [mentions_eq, List.forall_mem_map]
    intro token ht
    rw [hname token ht]
    exact Classical.not_not.mp fun hunknown => h token ht (faulty_iff.mpr hunknown)
  obtain ⟨s, hs, hlast⟩ := apply_of_isKnown expression hknown CheckSet.empty
  refine ⟨s, hs, fun c => ?_⟩
  have hempty : ¬ (CheckSet.empty c = true ∧ ∀ m ∈ mentions expression, ¬ StandsFor m.name c) :=
    fun hc => Bool.false_ne_true hc.1
  rw [hlast, or_iff_left hempty, mentions_eq, lastAdds_map]
  refine lastAdds_congr fun token ht => ⟨?_, adds_ofToken token⟩
  rw [hname token ht, Mentions]

theorem parse_ok_iff : (∃ s, parse expression = .ok s) ↔
    ∀ token ∈ tokens expression, ¬ Faulty token := by
  constructor
  · rintro ⟨s, hs⟩
    rcases exists_first_faulty expression with h | ⟨before, token, after, hsplit, hb, ht⟩
    · exact h
    · rw [parse_of_faulty hsplit hb ht] at hs
      cases hs
  · intro h
    obtain ⟨s, hs, -⟩ := parse_of_not_faulty h
    exact ⟨s, hs⟩

theorem parse_eq_error : parse expression = .error e ↔
    ∃ before token after, tokens expression = before ++ token :: after ∧
      (∀ t ∈ before, ¬ Faulty t) ∧ Faulty token ∧ e = faultOf expression token := by
  constructor
  · intro h
    rcases exists_first_faulty expression with hnone | ⟨before, token, after, hsplit, hb, ht⟩
    · obtain ⟨s, hs⟩ := parse_ok_iff.mpr hnone
      rw [h] at hs
      cases hs
    · rw [parse_of_faulty hsplit hb ht] at h
      cases h
      exact ⟨before, token, after, hsplit, hb, ht, rfl⟩
  · rintro ⟨before, token, after, hsplit, hb, ht, rfl⟩
    exact parse_of_faulty hsplit hb ht

theorem selected_iff (h : parse expression = .ok s) (c : Check) :
    s c = true ↔ LastAdds (Mentions · c) Adds (tokens expression) := by
  obtain ⟨t, ht, hlast⟩ := parse_of_not_faulty (parse_ok_iff.mp ⟨s, h⟩)
  rw [h] at ht
  cases ht
  exact hlast c

theorem mem_names {name : String} :
    name ∈ s.names ↔ ∃ c ∈ Check.all, c.name = name ∧ s c = true := by
  simp only [CheckSet.names, CheckSet.toList, List.mem_mergeSort, List.mem_map, List.mem_filter]
  constructor
  · rintro ⟨c, ⟨hc, hs⟩, hname⟩
    exact ⟨c, hc, hname, hs⟩
  · rintro ⟨c, hc, hname, hs⟩
    exact ⟨c, ⟨hc, hs⟩, hname⟩

/-- The tokens of a second expression decide on what they mention, and leave the rest as the first
expression has it. -/
theorem parse_append {a b : String} (ha : parse a = .ok s) (hb : parse b = .ok t) :
    ∃ u, parse (a ++ ":" ++ b) = .ok u ∧ ∀ c,
      ((∃ token ∈ tokens b, Mentions token c) → u c = t c) ∧
      ((∀ token ∈ tokens b, ¬ Mentions token c) → u c = s c) := by
  have hnone : ∀ token ∈ tokens (a ++ ":" ++ b), ¬ Faulty token := by
    rw [tokens_append, List.forall_mem_append]
    exact ⟨parse_ok_iff.mp ⟨s, ha⟩, parse_ok_iff.mp ⟨t, hb⟩⟩
  obtain ⟨u, hu, hlast⟩ := parse_of_not_faulty hnone
  refine ⟨u, hu, fun c => ⟨?_, ?_⟩⟩
  · rintro ⟨token, hmem, habout⟩
    rw [Bool.eq_iff_iff, hlast, selected_iff hb, tokens_append, lastAdds_append]
    exact or_iff_left fun h => h.2 token hmem habout
  · intro hsilent
    rw [Bool.eq_iff_iff, hlast, selected_iff ha, tokens_append, lastAdds_append,
      and_iff_left hsilent]
    refine or_iff_right fun h => ?_
    obtain ⟨token, hmem, habout⟩ := exists_about_of_lastAdds h
    exact hsilent token hmem habout

/-- Reading fails exactly if some token is faulty, and reports the first such token with the whole
expression.  Else the names selected are those of the checks of the catalog that some token mentions,
the last such token adding.  An expression in front of another one, both readable, counts for the
checks only that the other one never mentions. -/
theorem parse_lastMention :
    (∀ expression,
      ((∃ e, parse expression = .error e) ↔ ∃ token ∈ tokens expression, Faulty token) ∧
      (∀ e, parse expression = .error e ↔
        ∃ before token after, tokens expression = before ++ token :: after ∧
          (∀ t ∈ before, ¬ Faulty t) ∧ Faulty token ∧ e = faultOf expression token) ∧
      ∀ s, parse expression = .ok s → ∀ name, name ∈ s.names ↔ ∃ c ∈ Check.all, c.name = name ∧
        LastAdds (Mentions · c) Adds (tokens expression)) ∧
    ∀ a b s t, parse a = .ok s → parse b = .ok t → ∃ u, parse (a ++ ":" ++ b) = .ok u ∧
      ∀ c, ((∃ token ∈ tokens b, Mentions token c) → u c = t c) ∧
        ((∀ token ∈ tokens b, ¬ Mentions token c) → u c = s c) := by
  refine ⟨fun expression => ⟨?_, fun e => parse_eq_error, ?_⟩, fun a b s t => parse_append⟩
  · constructor
    · rintro ⟨e, he⟩
      obtain ⟨before, token, after, hsplit, -, hfaulty, -⟩ := parse_eq_error.mp he
      exact ⟨token, by simp [hsplit], hfaulty⟩
    · rintro ⟨token, hmem, hfaulty⟩
      rcases exists_first_faulty expression with h | ⟨before, first, after, hsplit, hb, hf⟩
      · exact absurd hfaulty (h token hmem)
      · exact ⟨_, parse_of_faulty hsplit hb hf⟩
  · intro s hs name
    rw [mem_names]
    refine exists_congr fun c => and_congr_right fun _ => and_congr_right fun _ => ?_
    exact selected_iff hs c

/-- A check of a group that was taken away comes back by its own name, and alone; an operator in front
of nothing is reported before an unknown name. -/
theorem parse_lastMention_mixed :
    (∃ s t u, parse "ALL:-tex" = .ok s ∧ parse " :+ Separated-Words" = .ok t ∧
      parse ("ALL:-tex" ++ ":" ++ " :+ Separated-Words") = .ok u ∧
      u .repeatedWords = s .repeatedWords ∧ u .separatedWords = t .separatedWords ∧
      "separated-words" ∈ u.names) ∧
    parse "Bib:-:nope" = .error (.missingName "Bib:-:nope") := by
  obtain ⟨hexpression, happend⟩ := parse_lastMention
  constructor
  · obtain ⟨u, hu, hdecides⟩ := happend "ALL:-tex" " :+ Separated-Words" _ _ rfl rfl
    have hmentions : Mentions "+ Separated-Words".toList .separatedWords := .inl (by decide)
    have hsilent : ¬ Mentions "+ Separated-Words".toList .repeatedWords := by
      rintro (h | ⟨g, h, -⟩)
      · revert h
        decide
      · revert h
        cases g <;> decide
    have htokens : tokens " :+ Separated-Words" = ["+ Separated-Words".toList] := by decide
    refine ⟨_, _, u, rfl, rfl, hu, ?_, ?_, ?_⟩
    · refine (hdecides .repeatedWords).2 fun token ht => ?_
      rw [htokens, List.mem_singleton] at ht
      exact ht ▸ hsilent
    · exact (hdecides .separatedWords).1 ⟨_, by simp [htokens], hmentions⟩
    · refine ((hexpression _).2.2 u hu "separated-words").mpr ⟨.separatedWords, by decide, rfl, ?_⟩
      exact ⟨["ALL".toList, "-tex".toList], "+ Separated-Words".toList, [], by decide, hmentions,
        by unfold Adds; decide, by simp⟩
  · refine ((hexpression "Bib:-:nope").2.1 _).mpr ⟨["Bib".toList], ['-'], ["nope".toList], by decide,
      ?_, .inl (by decide), rfl⟩
    intro token ht
    obtain rfl := List.mem_singleton.mp ht
    rintro (h | h)
    · revert h
      decide
    · exact h (.inr ⟨.bib, by decide⟩)

end BibAudit.Selection
