/-
# BibAudit.Proofs.Tex.Grammar — lines of words, mathematics and citations.

A line is written as segments, and a comment may end it.  A segment is a gap of blanks, a word of
prose, mathematics between dollar signs, or a citation command; the only thing that is asked of their
sequence is that no two words stand side by side, which would make them one.  The scanner goes over
such a line several times, and each pass finds the segments as they were written: no segment hides the
comment or is hidden by it, a citation command gives its keys and then a space, mathematics gives a
space, and what is left are the gaps and the words.
-/
import BibAudit.Proofs.Tex.Pattern
import BibAudit.Proofs.Text.Split
import BibAudit.Proofs.Text.Words

namespace BibAudit.Tex

variable {cs rest w core : List Char} {c : Char} {escaped : Bool}

/-! ## Comments -/

/-- Whether the character behind a text is escaped. -/
def escapesAfter (escaped : Bool) (cs : List Char) : Bool :=
  cs.foldl (fun escaped c => c == '\\' && !escaped) escaped

/-- A text stays as it is exactly if all its percent signs are escaped. -/
theorem stripFrom_eq_self_iff : stripFrom escaped cs = cs ↔
    ∀ front rest, cs = front ++ '%' :: rest → escapesAfter escaped front = true := by
  induction cs generalizing escaped with
  | nil => exact iff_of_true rfl fun front rest h => by simp at h
  | cons c cs ih =>
      rw [stripFrom]
      split
      · next hcomment =>
          -- The text ends before its first character, which is not escaped.
          obtain ⟨hc, hescaped⟩ : c = '%' ∧ escaped = false := by simpa using hcomment
          refine iff_of_false (List.cons_ne_nil c cs).symm fun h => ?_
          have hfirst := h [] cs (congrArg (· :: cs) hc)
          exact Bool.false_ne_true (hescaped.symm.trans hfirst)
      · next hplain =>
          rw [List.cons_inj_right, ih]
          constructor
          · intro h front rest heq
            cases front with
            | nil =>
                obtain ⟨rfl, -⟩ := List.cons.inj heq
                show escaped = true
                simpa using hplain
            | cons d front =>
                obtain ⟨rfl, hrest⟩ := List.cons.inj heq
                exact h front rest hrest
          · intro h front rest heq
            exact h (c :: front) rest (congrArg (c :: ·) heq)

theorem stripFrom_eq_self (h : '%' ∉ cs) (escaped : Bool) : stripFrom escaped cs = cs := by
  refine stripFrom_eq_self_iff.mpr fun front rest heq => absurd ?_ h
  rw [heq]
  exact List.mem_append_right front List.mem_cons_self

/-- Behind a text that stays as it is, what follows is read as that text leaves it. -/
theorem stripFrom_append (h : stripFrom escaped cs = cs) (rest : List Char) :
    stripFrom escaped (cs ++ rest) = cs ++ stripFrom (escapesAfter escaped cs) rest := by
  induction cs generalizing escaped with
  | nil => rfl
  | cons c cs ih =>
      rw [stripFrom] at h
      split at h
      · cases h
      · next hplain =>
          rw [List.cons_append, stripFrom, if_neg hplain, ih (List.cons.inj h).2]
          rfl

/-- Behind a character other than a backslash nothing is escaped. -/
theorem escapesAfter_eq_false (h : ∀ c ∈ cs.getLast?, c ≠ '\\') :
    escapesAfter false cs = false := by
  rcases List.eq_nil_or_concat cs with rfl | ⟨front, c, rfl⟩
  · rfl
  · have hc : (c == '\\') = false := by simpa using h c (by simp)
    rw [escapesAfter, List.concat_eq_append, List.foldl_append, List.foldl_cons, hc,
      Bool.false_and, List.foldl_nil]

theorem stripFrom_comment (comment : List Char) : stripFrom false ('%' :: comment) = [] := rfl

/-! ## Punctuation -/

/-- The core of a token is what stands between punctuation in front and punctuation behind, and has
no more of it at its own ends. -/
def IsCore (w core : List Char) : Prop :=
  ∃ front back, w = front ++ (core ++ back) ∧ (∀ c ∈ front, isLeading c = true) ∧
    (∀ c ∈ back, isTrailing c = true) ∧ (∀ c ∈ core.head?, isLeading c = false) ∧
    ∀ c ∈ core.getLast?, isTrailing c = false

theorem isCore_bareWord (w : List Char) : IsCore w (bareWord w) := by
  obtain ⟨back, hback, htrailing⟩ := Text.exists_dropEndWhile isTrailing (w.dropWhile isLeading)
  refine ⟨w.takeWhile isLeading, back, ?_, List.all_eq_true.mp List.all_takeWhile, htrailing, ?_,
    Text.last_dropEndWhile⟩
  · rw [bareWord, ← hback, List.takeWhile_append_dropWhile]
  · -- What is left after cutting the end begins as the text before it did.
    intro c hc
    have hhead : c ∈ (w.dropWhile isLeading).head? := by
      rw [hback, List.head?_append]
      rw [Option.mem_def] at hc ⊢
      rw [← bareWord, hc]
      rfl
    exact Text.head_dropWhile c hhead

theorem IsCore.bareWord_eq (h : IsCore w core) : bareWord w = core := by
  obtain ⟨front, back, rfl, hfront, hback, hhead, hlast⟩ := h
  rw [bareWord, List.dropWhile_append_of_pos hfront]
  cases core with
  | nil =>
      refine Text.dropEndWhile_eq_nil fun c hc => hback c ?_
      exact (List.dropWhile_suffix isLeading).subset hc
  | cons c core =>
      have hstays : ((c :: core) ++ back).dropWhile isLeading = (c :: core) ++ back :=
        Text.dropWhile_eq_self hhead
      rw [hstays, Text.dropEndWhile_append hback, Text.dropEndWhile_eq_self hlast]

/-- A token has one core, and that is the word. -/
theorem bareWord_eq_iff : bareWord w = core ↔ IsCore w core :=
  ⟨fun h => h ▸ isCore_bareWord w, IsCore.bareWord_eq⟩

/-! ## Citation commands -/

/-- Keys as they are cited: without the blanks around them, and without empty ones. -/
def citedKeys (keys : List (List Char)) : List String :=
  ((keys.map Text.trim).filter fun k => !k.isEmpty).map String.ofList

/-- A citation command: its form, and the keys as they are written between commas. -/
structure CiteDraft where
  silent : Bool
  capital : Bool
  mode : Option Char
  star : Bool
  options : List (List Char)
  keys : List (List Char)

namespace CiteDraft

variable {d : CiteDraft}

/-- The keys as they stand between the braces. -/
def listed (d : CiteDraft) : List Char :=
  [','].intercalate d.keys

/-- The optional arguments, each in its brackets. -/
def bracketed (options : List (List Char)) : List Char :=
  options.flatMap fun o => '[' :: (o ++ [']'])

/-- What stands behind the name: a star if there is one, optional arguments, and the list of keys. -/
def arguments (d : CiteDraft) : List Char :=
  (if d.star then ['*'] else []) ++ (bracketed d.options ++ '{' :: (d.listed ++ ['}']))

/-- The name of the command. -/
def name (d : CiteDraft) : List Char :=
  (if d.silent then "no".toList else []) ++
    ((if d.capital then "Cite".toList else "cite".toList) ++ d.mode.toList)

/-- The command as it is written. -/
def written (d : CiteDraft) : List Char :=
  '\\' :: (d.name ++ d.arguments)

/-- There are two optional arguments at most, and nothing ends an argument or a line too early. -/
structure WellFormed (d : CiteDraft) : Prop where
  mode : ∀ m ∈ d.mode, m = 't' ∨ m = 'p'
  two : d.options.length ≤ 2
  options : ∀ o ∈ d.options, ']' ∉ o ∧ '%' ∉ o
  keys : ∀ k ∈ d.keys, ',' ∉ k ∧ '}' ∉ k ∧ '%' ∉ k

instance (d : CiteDraft) : Decidable d.WellFormed :=
  decidable_of_iff ((d.mode.all fun m => m == 't' || m == 'p') = true ∧ d.options.length ≤ 2 ∧
      (∀ o ∈ d.options, ']' ∉ o ∧ '%' ∉ o) ∧ ∀ k ∈ d.keys, ',' ∉ k ∧ '}' ∉ k ∧ '%' ∉ k)
    ⟨fun ⟨hm, htwo, ho, hk⟩ => ⟨by simpa [Option.all_eq_true] using hm, htwo, ho, hk⟩,
      fun h => ⟨by simpa [Option.all_eq_true] using h.mode, h.two, h.options, h.keys⟩⟩

/-- Behind the name comes a star or a bracket. -/
theorem head_arguments (d : CiteDraft) (rest : List Char) :
    ∃ c more, d.arguments ++ rest = c :: more ∧ (c = '*' ∨ c = '[' ∨ c = '{') := by
  rw [arguments]
  cases d.star with
  | true => exact ⟨'*', _, rfl, .inl rfl⟩
  | false =>
      cases d.options with
      | nil => exact ⟨'{', _, rfl, .inr (.inr rfl)⟩
      | cons o options => exact ⟨'[', _, rfl, .inr (.inl rfl)⟩

theorem citeName?_name (h : d.WellFormed) (rest : List Char) :
    citeName? (d.name ++ (d.arguments ++ rest)) = some (d.arguments ++ rest) := by
  obtain ⟨c, more, hmore, hc⟩ := d.head_arguments rest
  have hstop : (c == 't' || c == 'p') = false := by
    rcases hc with rfl | rfl | rfl <;> rfl
  have hoptional : dropOptional (fun c => c == 't' || c == 'p') (d.mode.toList ++ c :: more) =
      c :: more := by
    cases hm : d.mode with
    | none => exact dropOptional_of_neg hstop more
    | some m =>
        have hmode : (m == 't' || m == 'p') = true := by
          rcases h.mode m hm with rfl | rfl <;> rfl
        exact if_pos hmode
  rw [hmore, name, citeName?]
  cases d.silent <;> cases d.capital <;> exact congrArg some hoptional

theorem bracketed_cons (o : List Char) (options : List (List Char)) (rest : List Char) :
    bracketed (o :: options) ++ rest = '[' :: (o ++ ']' :: (bracketed options ++ rest)) := by
  simp [bracketed]

theorem brace_not_mem_listed (h : d.WellFormed) : '}' ∉ d.listed :=
  Text.not_mem_intercalate (by decide) fun k hk => (h.keys k hk).2.1

/-- Up to two optional arguments are passed over, and then the group is found. -/
theorem group_bracketed {options : List (List Char)} (htwo : options.length ≤ 2)
    (h : ∀ o ∈ options, ']' ∉ o) {inside : List Char} (hinside : '}' ∉ inside) (rest : List Char) :
    group '{' '}' (dropGroup '[' ']' (dropGroup '[' ']'
      (bracketed options ++ '{' :: (inside ++ '}' :: rest)))) = some (inside, rest) := by
  have hfound : group '{' '}' ('{' :: (inside ++ '}' :: rest)) = some (inside, rest) :=
    group_append hinside rest
  have hbrace : dropGroup '[' ']' ('{' :: (inside ++ '}' :: rest)) =
      '{' :: (inside ++ '}' :: rest) :=
    dropGroup_of_ne (by decide) _
  match options with
  | [] =>
      rw [bracketed, List.flatMap_nil, List.nil_append, hbrace, hbrace, hfound]
  | [o] =>
      have ho : ']' ∉ o := h o List.mem_cons_self
      rw [bracketed_cons, dropGroup_append ho, bracketed, List.flatMap_nil, List.nil_append, hbrace,
        hfound]
  | [o, o'] =>
      have ho : ']' ∉ o := h o List.mem_cons_self
      have ho' : ']' ∉ o' := h o' (List.mem_cons_of_mem o List.mem_cons_self)
      rw [bracketed_cons, dropGroup_append ho, bracketed_cons, dropGroup_append ho', bracketed,
        List.flatMap_nil, List.nil_append, hfound]
  | _ :: _ :: _ :: more =>
      simp only [List.length_cons] at htwo
      omega

/-- The list of keys is found, whatever follows the command. -/
theorem group_arguments (h : d.WellFormed) (rest : List Char) :
    group '{' '}' (dropGroup '[' ']' (dropGroup '[' ']' (dropOptional (· == '*')
      (d.arguments ++ rest)))) = some (d.listed, rest) := by
  have hassoc : d.arguments ++ rest = (if d.star then ['*'] else []) ++
      (bracketed d.options ++ '{' :: (d.listed ++ '}' :: rest)) := by
    simp [arguments]
  have hstar : dropOptional (· == '*') (d.arguments ++ rest) =
      bracketed d.options ++ '{' :: (d.listed ++ '}' :: rest) := by
    rw [hassoc]
    cases d.star with
    | true => rfl
    | false =>
        cases d.options with
        | nil => exact dropOptional_of_neg rfl _
        | cons o options => exact dropOptional_of_neg rfl _
  rw [hstar]
  exact group_bracketed h.two (fun o ho => (h.options o ho).1) (brace_not_mem_listed h) rest

theorem cite_written (h : d.WellFormed) (rest : List Char) :
    cite (d.written ++ rest) = some (d.listed, rest) := by
  rw [written, List.cons_append, List.append_assoc, cite, citeName?_name h]
  exact group_arguments h rest

theorem keysOf_listed (h : d.WellFormed) : keysOf d.listed = citedKeys d.keys := by
  rw [keysOf, listed, citedKeys]
  cases hkeys : d.keys with
  | nil => rfl
  | cons k ks =>
      have hcomma : ∀ piece ∈ k :: ks, ',' ∉ piece :=
        fun piece hp => (h.keys piece (hkeys ▸ hp)).1
      rw [Text.splitWhere_intercalate hcomma (List.cons_ne_nil k ks)]

/-- A citation command does not reach into a comment behind it. -/
theorem percent_not_mem_written (h : d.WellFormed) : '%' ∉ d.written := by
  have hname : '%' ∉ d.name := by
    intro hmem
    rw [name, List.mem_append, List.mem_append] at hmem
    rcases hmem with hno | hcite | hmode
    · revert hno
      cases d.silent <;> decide
    · revert hcite
      cases d.capital <;> decide
    · rcases h.mode '%' (Option.mem_toList.mp hmode) with hm | hm <;> exact absurd hm (by decide)
  have hlisted : '%' ∉ d.listed :=
    Text.not_mem_intercalate (by decide) fun k hk => (h.keys k hk).2.2
  have hoptions : '%' ∉ bracketed d.options := by
    intro hmem
    obtain ⟨o, ho, hin⟩ := List.mem_flatMap.mp hmem
    have hpercent : '%' ∉ o := (h.options o ho).2
    simp [hpercent] at hin
  have hstar : '%' ∉ (if d.star then ['*'] else []) := by
    cases d.star <;> decide
  simp [written, arguments, hname, hlisted, hoptions, hstar]

theorem getLast?_written (d : CiteDraft) : d.written.getLast? = some '}' := by
  have hend : d.written = '\\' :: (d.name ++ ((if d.star then ['*'] else []) ++
      (bracketed d.options ++ '{' :: d.listed))) ++ ['}'] := by
    simp [written, arguments]
  rw [hend, List.getLast?_concat]

end CiteDraft

/-! ## Segments -/

/-- Characters that do not stand in prose. -/
def isMarkup (c : Char) : Bool :=
  ['\\', '%', '$', '{', '}', '~'].contains c

theorem isMarkup_of_isBlank (h : Text.isBlank c = true) : isMarkup c = false := by
  rw [isMarkup, List.contains_eq_mem, decide_eq_false_iff_not]
  intro hmem
  simp only [List.mem_cons, List.not_mem_nil, or_false] at hmem
  rcases hmem with rfl | rfl | rfl | rfl | rfl | rfl <;> exact absurd h (by decide)

theorem not_tie_of_isMarkup (h : isMarkup c = false) : c ∉ ['~', '{', '}'] := by
  intro htie
  simp only [List.mem_cons, List.not_mem_nil, or_false] at htie
  rcases htie with rfl | rfl | rfl <;> exact absurd h (by decide)

/-- A part of a line. -/
inductive Segment
  | gap (cs : List Char)
  | word (w : List Char)
  | math (body : List Char)
  | cite (d : CiteDraft)

namespace Segment

variable {s : Segment} {segments : List Segment}

def written : Segment → List Char
  | gap cs => cs
  | word w => w
  | math body => '$' :: (body ++ ['$'])
  | cite d => d.written

def WellFormed : Segment → Prop
  | gap cs => cs ≠ [] ∧ ∀ c ∈ cs, Text.isBlank c = true
  | word w => Text.IsWord w ∧ ∀ c ∈ w, isMarkup c = false
  | math body => '\\' ∉ body ∧ '$' ∉ body ∧ '%' ∉ body
  | cite d => d.WellFormed

instance : (s : Segment) → Decidable s.WellFormed
  | gap cs => decidable_of_iff (cs ≠ [] ∧ cs.all Text.isBlank = true) (by simp [WellFormed])
  | word w =>
      decidable_of_iff (Text.IsWord w ∧ (w.all fun c => !isMarkup c) = true) (by simp [WellFormed])
  | math body => inferInstanceAs (Decidable ('\\' ∉ body ∧ '$' ∉ body ∧ '%' ∉ body))
  | cite d => inferInstanceAs (Decidable d.WellFormed)

/-- The keys of a citation command, as they are written. -/
def keys : Segment → List (List Char)
  | cite d => d.keys
  | _ => []

def word? : Segment → Option (List Char)
  | word w => some w
  | _ => none

/-- What a segment is after the pass for citations. -/
def uncited : Segment → List Char
  | cite _ => [' ']
  | s => s.written

/-- What a segment is after all passes. -/
def shown : Segment → List Char
  | math _ => [' ']
  | s => s.uncited

/-! ### One pass after the other -/

/-- In what all passes leave there is no markup. -/
theorem isMarkup_of_mem_shown (h : s.WellFormed) : ∀ c ∈ s.shown, isMarkup c = false := by
  have hspace : ∀ c ∈ [' '], isMarkup c = false := List.forall_mem_singleton.mpr rfl
  cases s with
  | gap cs => exact fun c hc => isMarkup_of_isBlank (h.2 c hc)
  | word w => exact h.2
  | math body => exact hspace
  | cite d => exact hspace

theorem not_mem_shown (h : s.WellFormed) {m : Char} (hm : isMarkup m = true) : m ∉ s.shown :=
  fun hmem => absurd (isMarkup_of_mem_shown h m hmem) (by simp [hm])

/-- A segment does not hold the sign of a comment, nor does it escape one behind it. -/
theorem percent_not_mem_written (h : s.WellFormed) : '%' ∉ s.written := by
  cases s with
  | gap cs => exact not_mem_shown h rfl
  | word w => exact not_mem_shown h rfl
  | math body => simp [written, h.2.2]
  | cite d => exact d.percent_not_mem_written h

theorem getLast?_written_ne (h : s.WellFormed) : ∀ c ∈ s.written.getLast?, c ≠ '\\' := by
  rintro c hc rfl
  cases s with
  | gap cs => exact not_mem_shown h rfl (List.mem_of_mem_getLast? hc)
  | word w => exact not_mem_shown h rfl (List.mem_of_mem_getLast? hc)
  | math body =>
      rw [written, ← List.cons_append, List.getLast?_concat, Option.mem_some] at hc
      exact absurd hc (by decide)
  | cite d =>
      rw [written, d.getLast?_written, Option.mem_some] at hc
      exact absurd hc (by decide)

/-- What stands behind a segment is a comment if it is one by itself. -/
theorem stripFrom_written (h : s.WellFormed) (rest : List Char) :
    stripFrom false (s.written ++ rest) = s.written ++ stripFrom false rest := by
  rw [stripFrom_append (stripFrom_eq_self (percent_not_mem_written h) false),
    escapesAfter_eq_false (getLast?_written_ne h)]

/-- The pieces that the pass for citations makes of a segment. -/
def citePieces : Segment → List (Piece (List Char))
  | cite d => [.found d.listed]
  | s => s.written.map .plain

theorem readsAs_cite (h : s.WellFormed) : ReadsAs Tex.cite s.written s.citePieces := by
  cases s with
  | gap cs => exact cite_startsWith.readsAs (not_mem_shown h rfl)
  | word w => exact cite_startsWith.readsAs (not_mem_shown h rfl)
  | math body => exact cite_startsWith.readsAs (by simp [written, h.1])
  | cite d => exact readsAs_of_some fun rest => CiteDraft.cite_written h rest

theorem blanked_citePieces (s : Segment) : s.citePieces.map Piece.blanked = s.uncited := by
  cases s with
  | cite d => rfl
  | gap cs => exact blanked_plain cs
  | word w => exact blanked_plain w
  | math body => exact blanked_plain _

/-- The pieces that the pass for mathematics makes of what the one before left. -/
def mathPieces : Segment → List (Piece Unit)
  | math _ => [.found ()]
  | s => s.uncited.map .plain

theorem readsAs_inlineMath (h : s.WellFormed) : ReadsAs inlineMath s.uncited s.mathPieces := by
  cases s with
  | gap cs => exact inlineMath_startsWith.readsAs (not_mem_shown h rfl)
  | word w => exact inlineMath_startsWith.readsAs (not_mem_shown h rfl)
  | cite d => exact inlineMath_startsWith.readsAs (not_mem_shown h rfl)
  | math body =>
      refine readsAs_of_some fun rest => ?_
      rw [List.append_assoc, List.singleton_append]
      exact inlineMath_append h.2.1 rest

theorem blanked_mathPieces (s : Segment) : s.mathPieces.map Piece.blanked = s.shown := by
  cases s with
  | math body => rfl
  | gap cs => exact blanked_plain cs
  | word w => exact blanked_plain w
  | cite d => rfl

theorem backslash_not_mem_uncited (h : s.WellFormed) : '\\' ∉ s.uncited := by
  cases s with
  | gap cs => exact not_mem_shown h rfl
  | word w => exact not_mem_shown h rfl
  | math body => simp [uncited, written, h.1]
  | cite d => exact not_mem_shown h rfl

/-! ### What is found -/

theorem keysOf_found (h : s.WellFormed) :
    (s.citePieces.filterMap Piece.found?).flatMap keysOf = citedKeys s.keys := by
  have hplain : ∀ cs : List Char,
      ((cs.map (Piece.plain (α := List Char))).filterMap Piece.found?).flatMap keysOf = [] :=
    fun cs => congrArg (List.flatMap keysOf) (found_plain cs)
  cases s with
  | gap cs => exact hplain cs
  | word w => exact hplain w
  | math body => exact hplain _
  | cite d => exact (List.flatMap_singleton keysOf d.listed).trans (CiteDraft.keysOf_listed h)

/-- Two words do not stand side by side. -/
def Apart (s t : Segment) : Prop :=
  s.word? = none ∨ t.word? = none

instance (s t : Segment) : Decidable (Apart s t) :=
  inferInstanceAs (Decidable (_ ∨ _))

/-- Behind a word there is a blank, or nothing. -/
theorem blank_of_apart {w : List Char} (hapart : Apart (word w) s) (h : s.WellFormed)
    (more : List Char) : ∀ c ∈ (s.shown ++ more).head?, Text.isBlank c = true := by
  intro c hc
  cases s with
  | gap cs =>
      obtain ⟨b, cs, rfl⟩ := List.exists_cons_of_ne_nil h.1
      exact h.2 c (List.mem_of_mem_head? hc)
  | word v => rcases hapart with hnone | hnone <;> exact absurd hnone (Option.some_ne_none _)
  | math body => exact Option.mem_some.mp hc ▸ rfl
  | cite d => exact Option.mem_some.mp hc ▸ rfl

/-- Of the segments, the words of prose are left. -/
theorem words_shown (h : ∀ s ∈ segments, s.WellFormed) (hchain : segments.IsChain Apart) :
    Text.words (segments.flatMap shown) = segments.filterMap word? := by
  induction segments with
  | nil => rfl
  | cons s rest ih =>
      obtain ⟨hs, hrest⟩ := List.forall_mem_cons.mp h
      have hwords := ih hrest hchain.of_cons
      have hspace : Text.words ([' '] ++ rest.flatMap shown) = rest.filterMap word? :=
        (Text.words_append_of_blank (List.forall_mem_singleton.mpr rfl) _).trans hwords
      rw [List.flatMap_cons]
      cases s with
      | gap cs => exact (Text.words_append_of_blank hs.2 _).trans hwords
      | math body => exact hspace
      | cite d => exact hspace
      | word w =>
          have hend : ∀ c ∈ (rest.flatMap shown).head?, Text.isBlank c = true := by
            cases rest with
            | nil => exact nofun
            | cons t more =>
                have hapart : Apart (word w) t := (List.isChain_cons_cons.mp hchain).1
                rw [List.flatMap_cons]
                exact blank_of_apart hapart (hrest t List.mem_cons_self) _
          exact (Text.words_append_of_isWord hs.1 hend).trans (congrArg (w :: ·) hwords)

end Segment

end BibAudit.Tex
