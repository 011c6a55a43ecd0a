/-
# BibAudit.Proofs.Tex.Markup — what is left of markup among the words.

Blanks, braces, ties and the punctuation around a word never reach the words of a document.  A
backslash does in one place.  A command is a backslash and something behind it, so a backslash with
nothing behind it is no command: where a line breaks off in an escape, its last word ends in a
backslash.

Whether a line breaks off so is a matter of the backslashes at its end.  The passes before the one for
commands leave it as it is, since no match of theirs ends in a backslash and a space comes in its
place; and the pass for commands takes all other backslashes.
-/
import BibAudit.Proofs.Tex.Scan
import Mathlib.Algebra.Ring.Parity
import Mathlib.Data.List.Induction
import Mathlib.Data.List.Nodup
import Mathlib.Data.List.TakeWhile

namespace BibAudit.Tex

variable {α : Type} {p : Pattern α} {cs ds rest inside left line : List Char} {c close opening : Char}
  {a : α} {ws : List (List Char)} {path : SourcePath} {text : String} {n : Nat}

/-! ## Backslashes at the end -/

/-- How many backslashes stand at the end of a text. -/
def backslashesAtEnd (cs : List Char) : Nat :=
  (cs.reverse.takeWhile (· == '\\')).length

theorem backslashesAtEnd_concat (cs : List Char) (c : Char) :
    backslashesAtEnd (cs ++ [c]) = if c = '\\' then backslashesAtEnd cs + 1 else 0 := by
  rw [backslashesAtEnd, List.reverse_concat, List.takeWhile_cons]
  by_cases hc : c = '\\'
  · rw [if_pos hc, if_pos (by simpa using hc), List.length_cons, backslashesAtEnd]
  · rw [if_neg hc, if_neg (by simpa using hc), List.length_nil]

theorem escapesAfter_append (escaped : Bool) (cs ds : List Char) :
    escapesAfter escaped (cs ++ ds) = escapesAfter (escapesAfter escaped cs) ds := by
  unfold escapesAfter
  rw [List.foldl_append]

/-- A text ends in an escape if the backslashes at its end are odd in number. -/
theorem escapesAfter_iff_odd (cs : List Char) :
    escapesAfter false cs = true ↔ Odd (backslashesAtEnd cs) := by
  induction cs using List.reverseRecOn with
  | nil => exact iff_of_false Bool.false_ne_true (by decide)
  | append_singleton cs c ih =>
      have hstep : escapesAfter false (cs ++ [c]) = (c == '\\' && !escapesAfter false cs) := by
        rw [escapesAfter_append]
        rfl
      rw [hstep, backslashesAtEnd_concat]
      by_cases hc : c = '\\'
      · rw [if_pos hc, Nat.odd_add_one, ← ih]
        simp [hc]
      · rw [if_neg hc]
        exact iff_of_false (by simp [hc]) (by decide)

/-- Behind a character other than a backslash it does not matter how a text began. -/
theorem escapesAfter_cons_of_ne (h : c ≠ '\\') (escaped : Bool) (rest : List Char) :
    escapesAfter escaped (c :: rest) = escapesAfter false rest := by
  have hc : (c == '\\' && !escaped) = false := by simp [h]
  rw [escapesAfter, List.foldl_cons, hc, ← escapesAfter]

/-! ## What a match takes -/

/-- A match takes the front of what is searched, and does not end in a backslash. -/
def EndsVisibly (p : Pattern α) : Prop :=
  ∀ cs a rest, p cs = some (a, rest) → ∃ taken z, cs = taken ++ z :: rest ∧ z ≠ '\\'

theorem of_upTo_eq_some (h : upTo close cs = some (inside, rest)) :
    cs = inside ++ close :: rest := by
  induction cs generalizing inside with
  | nil => cases h
  | cons c cs ih =>
      rw [upTo] at h
      split at h
      · next hc =>
          obtain ⟨rfl, rfl⟩ := Prod.mk.inj (Option.some.inj h)
          rw [eq_of_beq hc, List.nil_append]
      · obtain ⟨⟨between, left⟩, hfound, heq⟩ := Option.map_eq_some_iff.mp h
        obtain ⟨rfl, rfl⟩ := Prod.mk.inj heq
        rw [List.cons_append, ← ih hfound]

theorem of_group_eq_some (h : group opening close cs = some (inside, rest)) :
    cs = opening :: (inside ++ close :: rest) := by
  cases cs with
  | nil => cases h
  | cons c cs =>
      rw [group] at h
      split at h
      · next hc => rw [eq_of_beq hc, of_upTo_eq_some h]
      · cases h

theorem exists_dropOptional (q : Char → Bool) (cs : List Char) :
    ∃ front, front ++ dropOptional q cs = cs ∧ ∀ c ∈ front, q c = true := by
  cases cs with
  | nil => exact ⟨[], rfl, List.forall_mem_nil _⟩
  | cons c cs =>
      rw [dropOptional]
      split
      · next hc => exact ⟨[c], rfl, List.forall_mem_singleton.mpr hc⟩
      · exact ⟨[], rfl, List.forall_mem_nil _⟩

theorem dropOptional_suffix (q : Char → Bool) (cs : List Char) : dropOptional q cs <:+ cs := by
  obtain ⟨front, hfront, -⟩ := exists_dropOptional q cs
  exact ⟨front, hfront⟩

theorem dropGroup_suffix (opening close : Char) (cs : List Char) :
    dropGroup opening close cs <:+ cs := by
  rw [dropGroup]
  split
  · next inside left hgroup =>
      rw [of_group_eq_some hgroup]
      exact ⟨opening :: (inside ++ [close]), by simp⟩
  · exact List.suffix_rfl

theorem isPrefixOf?_suffix {front : List Char} (h : front.isPrefixOf? cs = some rest) :
    rest <:+ cs := by
  induction front generalizing cs with
  | nil =>
      obtain rfl := Option.some.inj h
      exact List.suffix_rfl
  | cons f front ih =>
      cases cs with
      | nil => cases h
      | cons c cs =>
          rw [List.isPrefixOf?] at h
          split at h
          · exact (ih h).trans (List.suffix_cons c cs)
          · cases h

/-- What is left behind a group: the text up to the closing character was taken. -/
theorem of_group_of_suffix (hs : ds <:+ cs) (hg : group opening close ds = some (inside, rest)) :
    ∃ taken, cs = taken ++ close :: rest := by
  obtain ⟨front, rfl⟩ := hs
  rw [of_group_eq_some hg]
  exact ⟨front ++ opening :: inside, by simp⟩

theorem citeName?_suffix (h : citeName? cs = some rest) : rest <:+ cs := by
  have hno : ("no".toList.isPrefixOf? cs).getD cs <:+ cs := by
    cases hprefix : "no".toList.isPrefixOf? cs with
    | none => exact List.suffix_rfl
    | some left => exact isPrefixOf?_suffix hprefix
  rw [citeName?] at h
  split at h
  · next left hname =>
      obtain rfl := Option.some.inj h
      have hleft : left <:+ ("no".toList.isPrefixOf? cs).getD cs := by
        rcases Option.or_eq_some_iff.mp hname with hsmall | ⟨-, hlarge⟩
        · exact isPrefixOf?_suffix hsmall
        · exact isPrefixOf?_suffix hlarge
      exact ((dropOptional_suffix _ left).trans hleft).trans hno
  · cases h

theorem endsVisibly_cite : EndsVisibly cite := by
  intro cs a rest h
  unfold cite at h
  split at h
  · next cs =>
      obtain ⟨named, hname, hgroup⟩ := Option.bind_eq_some_iff.mp h
      have hs := ((dropGroup_suffix '[' ']' _).trans ((dropGroup_suffix '[' ']' _).trans
        (dropOptional_suffix (· == '*') named))).trans (citeName?_suffix hname)
      obtain ⟨taken, htaken⟩ := of_group_of_suffix hs hgroup
      exact ⟨'\\' :: taken, '}', by rw [htaken, List.cons_append], by decide⟩
  · cases h

/-- Groups that follow a closing brace are taken up to the closing brace of the last one. -/
theorem dropGroups_behind (count : Nat) (taken cs : List Char) :
    ∃ more, taken ++ '}' :: cs = more ++ '}' :: dropGroups count cs := by
  induction count generalizing taken cs with
  | zero => exact ⟨taken, rfl⟩
  | succ count ih =>
      rw [dropGroups]
      split
      · next inside left hgroup =>
          rw [of_group_eq_some hgroup]
          obtain ⟨more, hmore⟩ := ih (taken ++ '}' :: '{' :: inside) left
          exact ⟨more, by rw [← hmore]; simp⟩
      · exact ⟨taken, rfl⟩

theorem endsVisibly_silentCommand : EndsVisibly silentCommand := by
  intro cs a rest h
  unfold silentCommand at h
  split at h
  · next cs =>
      split at h
      · obtain ⟨⟨inside, left⟩, hgroup, heq⟩ := Option.map_eq_some_iff.mp h
        obtain ⟨-, rfl⟩ := Prod.mk.inj heq
        have hs := ((dropGroup_suffix '[' ']' _).trans (dropOptional_suffix (· == '*') _)).trans
          (List.dropWhile_suffix Char.isAlpha (l := cs))
        obtain ⟨taken, htaken⟩ := of_group_of_suffix hs hgroup
        obtain ⟨more, hmore⟩ := dropGroups_behind left.length ('\\' :: taken) left
        exact ⟨more, '}', by rw [← hmore, htaken, List.cons_append], by decide⟩
      · cases h
  · cases h

theorem endsVisibly_inlineMath : EndsVisibly inlineMath := by
  intro cs a rest h
  unfold inlineMath at h
  split at h
  · next cs =>
      obtain ⟨⟨inside, left⟩, hfound, heq⟩ := Option.map_eq_some_iff.mp h
      obtain ⟨-, rfl⟩ := Prod.mk.inj heq
      exact ⟨'$' :: inside, '$', by rw [of_upTo_eq_some hfound, List.cons_append], by decide⟩
  · cases h

/-- What the pass for commands takes ends in no escape: a name has no backslash in it, and of two
characters the first escapes the second. -/
theorem of_command_eq_some {u : Unit} (h : command cs = some (u, rest)) :
    ∃ taken, cs = '\\' :: (taken ++ rest) ∧ escapesAfter false ('\\' :: taken) = false := by
  unfold command at h
  split at h
  · next d cs =>
      split at h
      · next hd =>
          obtain ⟨-, rfl⟩ := Prod.mk.inj (Option.some.inj h)
          obtain ⟨star, hstar, hstars⟩ :=
            exists_dropOptional (· == '*') (cs.dropWhile isCommandChar)
          refine ⟨d :: (cs.takeWhile isCommandChar ++ star), ?_, ?_⟩
          · rw [List.cons_append, List.append_assoc, hstar, List.takeWhile_append_dropWhile]
          · have hname : '\\' ∉ d :: (cs.takeWhile isCommandChar ++ star) := by
              intro hmem
              rcases List.mem_cons.mp hmem with rfl | hmem
              · exact absurd hd (by decide)
              · rcases List.mem_append.mp hmem with hmem | hmem
                · exact absurd (List.mem_takeWhile_imp hmem) (by decide)
                · exact absurd (hstars _ hmem) (by decide)
            refine escapesAfter_eq_false fun c hc => ?_
            rw [List.getLast?_cons_cons] at hc
            exact fun heq => hname (heq ▸ List.mem_of_getLast? hc)
      · split at h
        · cases h
        · obtain ⟨-, rfl⟩ := Prod.mk.inj (Option.some.inj h)
          refine ⟨[d], rfl, ?_⟩
          simp [escapesAfter]
  · cases h

theorem command_eq_none (hn : '\n' ∉ c :: cs) (h : command (c :: cs) = none) :
    c ≠ '\\' ∨ cs = [] := by
  by_cases hc : c = '\\'
  · subst hc
    right
    cases cs with
    | nil => rfl
    | cons d cs =>
        exfalso
        have hd : d ≠ '\n' := fun heq => hn (by simp [heq])
        rw [command] at h
        split at h
        · cases h
        · simp [hd] at h
  · exact .inl hc

/-! ## The search goes on behind a match -/

/-- A search takes characters without a match one by one, and of a match all that it takes; the
induction is on how much is left to search. -/
theorem blankOut_induct {motive : List Char → List Char → Prop}
    (htakes : ∀ c cs a rest, p (c :: cs) = some (a, rest) → rest <:+ cs) (hnil : motive [] [])
    (hplain : ∀ c rest, p (c :: rest) = none → motive rest (blankOut p rest) →
      motive (c :: rest) (c :: blankOut p rest))
    (hfound : ∀ c taken rest a, p (c :: (taken ++ rest)) = some (a, rest) →
      motive rest (blankOut p rest) → motive (c :: (taken ++ rest)) (' ' :: blankOut p rest))
    (cs : List Char) : motive cs (blankOut p cs) := by
  induction hlength : cs.length using Nat.strongRecOn generalizing cs with
  | ind length ih =>
      cases cs with
      | nil => exact hnil
      | cons c cs =>
          rw [List.length_cons] at hlength
          cases hmatch : p (c :: cs) with
          | none =>
              rw [blankOut_cons_of_none hmatch]
              exact hplain c cs hmatch (ih cs.length (by omega) cs rfl)
          | some found =>
              obtain ⟨a, rest⟩ := found
              obtain ⟨taken, rfl⟩ := htakes c cs a rest hmatch
              rw [List.length_append] at hlength
              rw [blankOut_of_some hmatch]
              exact hfound c taken rest a hmatch (ih rest.length (by omega) rest rfl)

theorem EndsVisibly.takes (hp : EndsVisibly p) (c : Char) (cs : List Char) (a : α)
    (rest : List Char) (h : p (c :: cs) = some (a, rest)) : rest <:+ cs := by
  obtain ⟨taken, z, heq, -⟩ := hp _ a rest h
  cases taken with
  | nil =>
      obtain ⟨rfl, rfl⟩ := List.cons.inj heq
      exact List.suffix_rfl
  | cons t taken =>
      obtain ⟨rfl, rfl⟩ := List.cons.inj heq
      exact ⟨taken ++ [z], by simp⟩

/-- A match that does not end in a backslash leaves the text behind it as a space does. -/
theorem escapesAfter_blankOut (hp : EndsVisibly p) (cs : List Char) :
    ∀ escaped, escapesAfter escaped (blankOut p cs) = escapesAfter escaped cs := by
  refine blankOut_induct (motive := fun cs ds => ∀ escaped,
    escapesAfter escaped ds = escapesAfter escaped cs) hp.takes ?_ ?_ ?_ cs
  · exact fun _ => rfl
  · intro c rest _ ih escaped
    exact ih (c == '\\' && !escaped)
  · intro c taken rest a hmatch ih escaped
    obtain ⟨front, z, hfront, hz⟩ := hp _ a rest hmatch
    rw [hfront, escapesAfter_append, escapesAfter_cons_of_ne hz,
      escapesAfter_cons_of_ne (by decide), ih]

/-- What a search leaves was there before, or is a space. -/
theorem mem_blankOut (hp : EndsVisibly p) : c ∈ blankOut p cs → c ∈ cs ∨ c = ' ' := by
  refine blankOut_induct (motive := fun cs ds => c ∈ ds → c ∈ cs ∨ c = ' ') hp.takes ?_ ?_ ?_ cs
  · exact .inl
  · intro d rest _ ih hmem
    rcases List.mem_cons.mp hmem with rfl | hmem
    · exact .inl List.mem_cons_self
    · exact (ih hmem).imp_left (List.mem_cons_of_mem d)
  · intro d taken rest a _ ih hmem
    rcases List.mem_cons.mp hmem with rfl | hmem
    · exact .inr rfl
    · exact (ih hmem).imp_left fun h => List.mem_cons_of_mem d (List.mem_append_right taken h)

/-- The pass for commands leaves no backslash but one that has nothing behind it. -/
theorem blankOut_command (hn : '\n' ∉ cs) : ∃ front, '\\' ∉ front ∧
    blankOut command cs = front ++ if escapesAfter false cs then ['\\'] else [] := by
  revert hn
  have htakes : ∀ c cs u rest, command (c :: cs) = some (u, rest) → rest <:+ cs := by
    intro c cs u rest h
    obtain ⟨taken, htaken, -⟩ := of_command_eq_some h
    exact ⟨taken, (List.cons.inj htaken).2.symm⟩
  refine blankOut_induct (motive := fun cs ds => '\n' ∉ cs → ∃ front, '\\' ∉ front ∧
    ds = front ++ if escapesAfter false cs then ['\\'] else []) htakes ?_ ?_ ?_ cs
  · exact fun _ => ⟨[], List.not_mem_nil, rfl⟩
  · intro c rest hnone ih hn
    rcases command_eq_none hn hnone with hc | rfl
    · obtain ⟨front, hfront, hrest⟩ := ih fun hmem => hn (List.mem_cons_of_mem c hmem)
      refine ⟨c :: front, ?_, ?_⟩
      · rw [List.mem_cons, not_or]
        exact ⟨Ne.symm hc, hfront⟩
      · rw [hrest, escapesAfter_cons_of_ne hc, List.cons_append]
    · by_cases hc : c = '\\'
      · subst hc
        exact ⟨[], List.not_mem_nil, rfl⟩
      · refine ⟨[c], fun hmem => hc (List.mem_singleton.mp hmem).symm, ?_⟩
        rw [escapesAfter_cons_of_ne hc]
        rfl
  · intro c taken rest u hmatch ih hn
    obtain ⟨name, hname, hescapes⟩ := of_command_eq_some hmatch
    obtain ⟨front, hfront, hrest⟩ := ih fun hmem =>
      hn (List.mem_cons_of_mem c (List.mem_append_right taken hmem))
    refine ⟨' ' :: front, ?_, ?_⟩
    · rw [List.mem_cons, not_or]
      exact ⟨by decide, hfront⟩
    · rw [hname, ← List.cons_append, escapesAfter_append, hescapes, hrest, List.cons_append]

/-! ## Lines -/

theorem stripFrom_isPart (escaped : Bool) (cs : List Char) : stripFrom escaped cs <+: cs := by
  induction cs generalizing escaped with
  | nil => exact List.prefix_rfl
  | cons c cs ih =>
      rw [stripFrom]
      split
      · exact List.nil_prefix
      · exact (List.prefix_cons_inj c).mpr (ih _)

theorem untied_eq_backslash : untied c = '\\' ↔ c = '\\' := by
  unfold untied
  split
  · next hc =>
      refine iff_of_false (by decide) ?_
      rintro rfl
      exact absurd hc (by decide)
  · exact Iff.rfl

/-- The prose of a line has one backslash, at its end, if the line breaks off in an escape, and none
otherwise. -/
theorem prose_backslash (hn : '\n' ∉ line) : ∃ front, '\\' ∉ front ∧
    prose line = front ++ if escapesAfter false (stripComment line) then ['\\'] else [] := by
  have hspace : '\n' ≠ ' ' := by decide
  have hstripped : '\n' ∉ stripComment line := fun h => hn ((stripFrom_isPart false line).subset h)
  have hcited := fun h => (mem_blankOut endsVisibly_cite h).elim hstripped hspace
  have hsilent := fun h => (mem_blankOut endsVisibly_silentCommand h).elim hcited hspace
  have hmath := fun h => (mem_blankOut endsVisibly_inlineMath h).elim hsilent hspace
  obtain ⟨front, hfront, hcommands⟩ := blankOut_command hmath
  rw [escapesAfter_blankOut endsVisibly_inlineMath, escapesAfter_blankOut endsVisibly_silentCommand,
    escapesAfter_blankOut endsVisibly_cite] at hcommands
  refine ⟨front.map untied, ?_, ?_⟩
  · intro hmem
    obtain ⟨c, hc, heq⟩ := List.mem_map.mp hmem
    exact hfront (untied_eq_backslash.mp heq ▸ hc)
  · rw [prose_eq, hcommands, List.map_append]
    split <;> rfl

theorem not_tie_of_mem_prose (h : c ∈ prose line) : c ∉ ['~', '{', '}'] := by
  rw [prose_eq] at h
  obtain ⟨d, -, rfl⟩ := List.mem_map.mp h
  unfold untied
  split
  · decide
  · next hd =>
      simpa only [Bool.or_eq_true, beq_iff_eq, not_or, List.mem_cons, List.not_mem_nil, or_false,
        and_assoc] using hd

/-! ## Words -/

/-- A word without blanks, ties and braces, and without punctuation at its ends. -/
structure Unmarked (w : List Char) : Prop where
  word : Text.IsWord w
  untied : ∀ c ∈ w, c ∉ ['~', '{', '}']
  head : ∀ c ∈ w.head?, isLeading c = false
  last : ∀ c ∈ w.getLast?, isTrailing c = false

theorem bareWord_subset (w : List Char) : bareWord w ⊆ w := by
  obtain ⟨front, back, hw, -⟩ := isCore_bareWord w
  intro c hc
  rw [hw]
  exact List.mem_append_right front (List.mem_append_left back hc)

theorem mem_bareWords {w : String} :
    w ∈ bareWords ws ↔ w.toList ≠ [] ∧ ∃ token ∈ ws, w.toList = bareWord token := by
  rw [bareWords, List.mem_map]
  constructor
  · rintro ⟨cs, hcs, rfl⟩
    obtain ⟨htoken, hfilled⟩ := List.mem_filter.mp hcs
    obtain ⟨token, hmem, rfl⟩ := List.mem_map.mp htoken
    rw [String.toList_ofList]
    exact ⟨by simpa using hfilled, token, hmem, rfl⟩
  · rintro ⟨hfilled, token, hmem, hw⟩
    refine ⟨w.toList, List.mem_filter.mpr ⟨?_, by simpa using hfilled⟩, String.ofList_toList⟩
    exact List.mem_map.mpr ⟨token, hmem, hw.symm⟩

theorem unmarked_of_mem_wordsOn {w : String} (h : w ∈ wordsOn line) : Unmarked w.toList := by
  rw [wordsOn_eq] at h
  obtain ⟨hfilled, token, htoken, hw⟩ := mem_bareWords.mp h
  obtain ⟨-, -, -, -, -, hhead, hlast⟩ := isCore_bareWord token
  have hword := Text.isWord_of_mem_words htoken
  have hsubset : ∀ c ∈ w.toList, c ∈ token := fun c hc => bareWord_subset token (hw ▸ hc)
  refine ⟨⟨hfilled, fun c hc => hword.visible c (hsubset c hc)⟩, ?_, hw ▸ hhead, hw ▸ hlast⟩
  intro c hc
  have hflat : c ∈ (Text.words (prose line)).flatten :=
    List.mem_flatten.mpr ⟨token, htoken, hsubset c hc⟩
  rw [Text.flatten_words] at hflat
  exact not_tie_of_mem_prose (List.mem_filter.mp hflat).1

/-- The characters of some words, in order. -/
def charsOf (ws : List String) : List Char :=
  ws.flatMap String.toList

theorem mem_charsOf_bareWords (h : c ∈ charsOf (bareWords ws)) : c ∈ ws.flatten := by
  obtain ⟨w, hw, hc⟩ := List.mem_flatMap.mp h
  obtain ⟨-, token, htoken, heq⟩ := mem_bareWords.mp hw
  exact List.mem_flatten.mpr ⟨token, htoken, bareWord_subset token (heq ▸ hc)⟩

/-- A backslash behind all other characters ends the last word: it is no punctuation. -/
theorem charsOf_bareWords_concat (hws : ∀ w ∈ ws, w ≠ []) {front : List Char}
    (hflat : ws.flatten = front ++ ['\\']) (hfront : '\\' ∉ front) :
    ∃ chars, '\\' ∉ chars ∧ charsOf (bareWords ws) = chars ++ ['\\'] := by
  rcases List.eq_nil_or_concat ws with rfl | ⟨before, token, rfl⟩
  · exact absurd hflat.symm (by simp)
  · rw [List.concat_eq_append] at hws hflat ⊢
    have htoken : token ≠ [] := hws token (by simp)
    obtain ⟨word, z, rfl⟩ := (List.eq_nil_or_concat token).resolve_left htoken
    rw [List.concat_eq_append, List.flatten_append, List.flatten_singleton,
      ← List.append_assoc] at hflat
    obtain ⟨hchars, hz⟩ := List.append_inj' hflat rfl
    obtain rfl : z = '\\' := List.singleton_inj.mp hz
    have hbare : bareWord (word ++ ['\\']) = word.dropWhile isLeading ++ ['\\'] := by
      rw [bareWord, Text.dropWhile_append_cons (by decide),
        Text.dropEndWhile_append_cons (by decide), Text.dropEndWhile_nil]
    have hlast : bareWords (before ++ [word ++ ['\\']]) =
        bareWords before ++ [String.ofList (word.dropWhile isLeading ++ ['\\'])] := by
      rw [bareWords, List.map_append, List.map_singleton, hbare, List.filter_append,
        List.map_append, List.filter_cons_of_pos (by simp)]
      rfl
    refine ⟨charsOf (bareWords before) ++ word.dropWhile isLeading, ?_, ?_⟩
    · rw [List.mem_append, not_or]
      rw [← hchars, List.mem_append, not_or] at hfront
      exact ⟨fun h => hfront.1 (mem_charsOf_bareWords h),
        fun h => hfront.2 ((List.dropWhile_suffix isLeading).subset h)⟩
    · rw [List.concat_eq_append, hlast, charsOf, List.flatMap_append, List.flatMap_singleton,
        String.toList_ofList, List.append_assoc]
      rfl

/-- The words of a line have one backslash, at the end of the last of them, if the line breaks off in
an escape, and none otherwise. -/
theorem charsOf_wordsOn (hn : '\n' ∉ line) : ∃ chars, '\\' ∉ chars ∧ charsOf (wordsOn line) =
    chars ++ if Odd (backslashesAtEnd (stripComment line)) then ['\\'] else [] := by
  obtain ⟨front, hfront, hprose⟩ := prose_backslash hn
  have hflat : (Text.words (prose line)).flatten = front.filter (fun c => !Text.isBlank c) ++
      if escapesAfter false (stripComment line) then ['\\'] else [] := by
    rw [Text.flatten_words, hprose, List.filter_append]
    split <;> rfl
  have hvisible : '\\' ∉ front.filter fun c => !Text.isBlank c :=
    fun hmem => hfront (List.mem_filter.mp hmem).1
  simp only [← escapesAfter_iff_odd, wordsOn_eq]
  split
  · next hescapes =>
      rw [if_pos hescapes] at hflat
      exact charsOf_bareWords_concat (fun w hw => Text.ne_nil_of_mem_words hw) hflat hvisible
  · next hescapes =>
      rw [if_neg hescapes, List.append_nil] at hflat
      refine ⟨charsOf (bareWords (Text.words (prose line))), fun hmem => hvisible ?_,
        (List.append_nil _).symm⟩
      rw [← hflat]
      exact mem_charsOf_bareWords hmem

/-! ## Documents -/

theorem numbers_numberedLines (text : String) : (numberedLines text).map Prod.snd =
    List.range' 1 (Text.lines text.toList).length :=
  List.zipIdx_map_snd 1 _

theorem mem_words_document {w : Word} : w ∈ (document path text).words ↔
    ∃ line, (line, w.line) ∈ numberedLines text ∧ w.text ∈ wordsOn line := by
  constructor
  · intro h
    obtain ⟨⟨line, n⟩, hline, hw⟩ := List.mem_flatMap.mp h
    obtain ⟨s, hs, rfl⟩ := List.mem_map.mp hw
    exact ⟨line, hline, hs⟩
  · rintro ⟨line, hline, hw⟩
    exact List.mem_flatMap.mpr ⟨(line, w.line), hline, List.mem_map.mpr ⟨w.text, hw, rfl⟩⟩

/-- The words of a document follow one another down the lines. -/
theorem words_ordered (path : SourcePath) (text : String) :
    (document path text).words.Pairwise fun v w => v.line ≤ w.line := by
  have hlines : (numberedLines text).Pairwise fun a b => a.2 < b.2 := by
    rw [← List.pairwise_map (f := Prod.snd) (R := (· < ·)), numbers_numberedLines]
    exact List.pairwise_lt_range'
  refine List.pairwise_flatMap.mpr ⟨?_, hlines.imp ?_⟩
  · intro ⟨line, n⟩ _
    rw [List.pairwise_map]
    exact List.pairwise_of_forall fun _ _ => Nat.le_refl n
  · intro ⟨line, n⟩ ⟨other, m⟩ hlt v hv w hw
    obtain ⟨-, -, rfl⟩ := List.mem_map.mp hv
    obtain ⟨-, -, rfl⟩ := List.mem_map.mp hw
    exact Nat.le_of_lt hlt

/-- Of what is found in a document, that on one line is what is read there. -/
theorem filter_numberedLines {β : Type} (read : List Char → List String) (place : String → Nat → β)
    (lineOf : β → Nat) (hplace : ∀ s n, lineOf (place s n) = n)
    (h : (line, n) ∈ numberedLines text) :
    ((numberedLines text).flatMap fun (line, n) => (read line).map fun s => place s n).filter
      (fun b => lineOf b == n) = (read line).map fun s => place s n := by
  obtain ⟨front, back, hsplit⟩ := List.append_of_mem h
  have hnodup : ((numberedLines text).map Prod.snd).Nodup := by
    rw [numbers_numberedLines]
    exact List.nodup_range'
  rw [hsplit, List.map_append, List.map_cons, List.nodup_middle, List.nodup_cons,
    ← List.map_append] at hnodup
  -- No other line has the number.
  have hothers : ∀ other ∈ front ++ back,
      ((read other.1).map fun s => place s other.2).filter (fun b => lineOf b == n) = [] := by
    intro other hother
    refine List.filter_eq_nil_iff.mpr fun b hb => ?_
    obtain ⟨s, -, rfl⟩ := List.mem_map.mp hb
    have hne : other.2 ≠ n := fun heq => hnodup.1 (List.mem_map.mpr ⟨other, hother, heq⟩)
    simpa [hplace] using hne
  have hself : ((read line).map fun s => place s n).filter (fun b => lineOf b == n) =
      (read line).map fun s => place s n := by
    refine List.filter_eq_self.mpr fun b hb => ?_
    obtain ⟨s, -, rfl⟩ := List.mem_map.mp hb
    exact beq_iff_eq.mpr (hplace s n)
  have hfront := List.flatMap_eq_nil_iff.mpr fun other h =>
    hothers other (List.mem_append_left back h)
  have hback := List.flatMap_eq_nil_iff.mpr fun other h =>
    hothers other (List.mem_append_right front h)
  show ((numberedLines text).flatMap fun numbered => (read numbered.1).map fun s =>
    place s numbered.2).filter (fun b => lineOf b == n) = _
  rw [hsplit, List.filter_flatMap, List.flatMap_append, List.flatMap_cons, hself]
  simp only [hfront, hback, List.nil_append, List.append_nil]

/-- The words on a line of a document. -/
def wordsAt (d : Document) (n : Nat) : List String :=
  (d.words.filter (·.line == n)).map Word.text

theorem wordsAt_document (h : (line, n) ∈ numberedLines text) :
    wordsAt (document path text) n = wordsOn line := by
  have hfound := filter_numberedLines wordsOn (fun w n => (⟨w, n⟩ : Word)) Word.line
    (fun _ _ => rfl) h
  rw [wordsAt, document, hfound, List.map_map]
  exact List.map_id _

/-- Every word of a document is without blanks, ties and braces and without punctuation at its ends,
and stands on a line of the document; the lines never go back.  Of the characters of the words on a
line only the very last one can be a backslash, and it is one exactly if the line, its comment left
out, ends in an odd number of backslashes: no other line has a word with a backslash. -/
theorem document_unmarked (path : SourcePath) (text : String) :
    (∀ w ∈ (document path text).words, Unmarked w.text.toList ∧ 1 ≤ w.line ∧
        w.line ≤ (Text.lines text.toList).length) ∧
      ((document path text).words.Pairwise fun v w => v.line ≤ w.line) ∧
      (∀ line n, (line, n) ∈ numberedLines text → ∃ chars, '\\' ∉ chars ∧
        charsOf (wordsAt (document path text) n) =
          chars ++ if Odd (backslashesAtEnd (stripComment line)) then ['\\'] else []) ∧
      ∀ w ∈ (document path text).words, '\\' ∈ w.text.toList →
        ∃ line, (line, w.line) ∈ numberedLines text ∧
          Odd (backslashesAtEnd (stripComment line)) := by
  have hnewline : ∀ line n, (line, n) ∈ numberedLines text → '\n' ∉ line :=
    fun line n h => Text.newline_not_mem_of_mem_lines (List.fst_mem_of_mem_zipIdx h)
  refine ⟨fun w hw => ⟨?_, word_bounds hw⟩, words_ordered path text, ?_, ?_⟩
  · obtain ⟨line, -, htext⟩ := mem_words_document.mp hw
    exact unmarked_of_mem_wordsOn htext
  · intro line n h
    rw [wordsAt_document h]
    exact charsOf_wordsOn (hnewline line n h)
  · intro w hw hmem
    obtain ⟨line, hline, htext⟩ := mem_words_document.mp hw
    refine ⟨line, hline, ?_⟩
    obtain ⟨chars, hchars, heq⟩ := charsOf_wordsOn (hnewline line w.line hline)
    have hin : '\\' ∈ charsOf (wordsOn line) := List.mem_flatMap.mpr ⟨w.text, htext, hmem⟩
    rw [heq] at hin
    by_contra hodd
    rw [if_neg hodd, List.append_nil] at hin
    exact hchars hin

/-- A control space at the end of a line: its backslash stays with the word before it. -/
theorem document_brokenOff :
    (document ⟨"paper.tex"⟩ "see e.g.\\\nFigure").words =
        [⟨"see", 1⟩, ⟨"e.g.\\", 1⟩, ⟨"Figure", 2⟩] ∧
      ¬ ∀ (path : SourcePath) (text : String), ∀ w ∈ (document path text).words,
        '\\' ∉ w.text.toList := by
  have hwords : (document ⟨"paper.tex"⟩ "see e.g.\\\nFigure").words =
      [⟨"see", 1⟩, ⟨"e.g.\\", 1⟩, ⟨"Figure", 2⟩] := by
    decide +kernel
  refine ⟨hwords, fun h => ?_⟩
  have hclean := h ⟨"paper.tex"⟩ "see e.g.\\\nFigure" ⟨"e.g.\\", 1⟩ (by rw [hwords]; simp)
  exact hclean (by decide)

end BibAudit.Tex
