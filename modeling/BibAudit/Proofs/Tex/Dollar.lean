/-
# BibAudit.Proofs.Tex.Dollar — dollar signs with a backslash in front of them.

Mathematics gives way to a space before commands do, and the pass for it does not see whether a
backslash stands in front of a dollar sign.  So the signs of a line are paired from the left, escaped
ones and others alike, and all that stands between the two of a pair is lost.  Only the last sign can
be without a partner; if it is escaped, it gives way to a space with its backslash, and otherwise it
stays.  So an escaped sign is read as it is meant if it is the last one of its line and formulas end
before it, and otherwise the prose up to the next sign is lost.
-/
import BibAudit.Proofs.Tex.Scan
import Mathlib.Algebra.Group.Nat.Even

namespace BibAudit.Tex

/-! ## Lines with dollar signs -/

/-- A character of prose or of mathematics, or a dollar sign, `escaped` by a backslash in front of it
or not. -/
inductive Sign
  | plain (c : Char)
  | dollar (escaped : Bool)
deriving DecidableEq

namespace Sign

variable {s : Sign}

def written : Sign → List Char
  | plain c => [c]
  | dollar false => ['$']
  | dollar true => ['\\', '$']

def WellFormed : Sign → Prop
  | plain c => c ≠ '\\' ∧ c ≠ '$' ∧ c ≠ '%'
  | dollar _ => True

instance : (s : Sign) → Decidable s.WellFormed
  | plain c => inferInstanceAs (Decidable (c ≠ '\\' ∧ c ≠ '$' ∧ c ≠ '%'))
  | dollar _ => inferInstanceAs (Decidable True)

def isDollar : Sign → Bool
  | plain _ => false
  | dollar _ => true

/-- An escaped dollar sign as it is meant: a character that separates words. -/
def meant : Sign → Sign
  | plain c => plain c
  | dollar false => dollar false
  | dollar true => plain ' '

theorem not_mem_plain {c m : Char} (h : c ≠ m) : m ∉ (plain c).written :=
  fun hmem => h (List.mem_singleton.mp hmem).symm

theorem percent_not_mem_written (h : s.WellFormed) : '%' ∉ s.written := by
  cases s with
  | plain c => exact not_mem_plain h.2.2
  | dollar escaped => cases escaped <;> decide

theorem dollar_not_mem_written (h : s.WellFormed) (hd : s.isDollar = false) :
    '$' ∉ s.written := by
  cases s with
  | plain c => exact not_mem_plain h.2.1
  | dollar escaped => exact absurd hd.symm Bool.false_ne_true

/-- No command for which a name must follow begins with an escaped dollar sign. -/
theorem readsAs_written {α : Type} {p : Pattern α} (hp : StartsWith p '\\')
    (hnone : ∀ rest, p ('\\' :: '$' :: rest) = none) (h : s.WellFormed) :
    ReadsAs p s.written (s.written.map .plain) := by
  cases s with
  | plain c => exact hp.readsAs (not_mem_plain h.1)
  | dollar escaped =>
      intro rest
      cases escaped with
      | false => exact pieces_cons_of_none (hp '$' rest (by decide))
      | true =>
          have hdollar : pieces p ('$' :: rest) = .plain '$' :: pieces p rest :=
            pieces_cons_of_none (hp '$' rest (by decide))
          exact (pieces_cons_of_none (hnone rest)).trans (congrArg (.plain '\\' :: ·) hdollar)

end Sign

variable {line : List Sign} {s : Sign} {inside : Bool}

/-- A line as it is written. -/
def writtenLine (line : List Sign) : List Char :=
  line.flatMap Sign.written

theorem stripComment_writtenLine (h : ∀ s ∈ line, s.WellFormed) :
    stripComment (writtenLine line) = writtenLine line := by
  refine stripFrom_eq_self (fun hmem => ?_) false
  obtain ⟨s, hs, hin⟩ := List.mem_flatMap.mp hmem
  exact Sign.percent_not_mem_written (h s hs) hin

theorem blankOut_writtenLine {α : Type} {p : Pattern α} (hp : StartsWith p '\\')
    (hnone : ∀ rest, p ('\\' :: '$' :: rest) = none) (h : ∀ s ∈ line, s.WellFormed) :
    blankOut p (writtenLine line) = writtenLine line := by
  have hreads := readsAs_flatMap fun s hs => Sign.readsAs_written hp hnone (h s hs)
  rw [writtenLine, hreads.blankOut_eq, List.map_flatMap]
  exact List.flatMap_congr fun s _ => blanked_plain s.written

/-! ## Pairs of dollar signs -/

/-- What the pass for mathematics leaves of a line that begins outside or `inside` of it: characters,
each with a backslash in front of it or without one. -/
def leftOf : Bool → List Sign → List (Bool × Char)
  | _, [] => []
  | false, .plain c :: rest => (false, c) :: leftOf false rest
  | false, .dollar escaped :: rest =>
    (escaped, if rest.any Sign.isDollar then ' ' else '$') :: leftOf (rest.any Sign.isDollar) rest
  | true, .plain _ :: rest => leftOf true rest
  | true, .dollar _ :: rest => leftOf false rest

/-- A backslash and the character behind it give way to a space, as ties and braces do. -/
def shownOf : Bool × Char → Char
  | (true, _) => ' '
  | (false, c) => untied c

/-- What is left of a line in the end. -/
def shownLine (line : List Sign) : List Char :=
  (leftOf false line).map shownOf

/-- A character that is left was there before, or it stands where a dollar sign was. -/
theorem of_mem_leftOf (h : ∀ s ∈ line, s.WellFormed) {escaped : Bool} {c : Char}
    (hmem : (escaped, c) ∈ leftOf inside line) :
    (escaped = false ∧ c ≠ '\\') ∨ c = ' ' ∨ c = '$' := by
  induction line generalizing inside with
  | nil => simp [leftOf] at hmem
  | cons s rest ih =>
      obtain ⟨hs, hrest⟩ := List.forall_mem_cons.mp h
      cases inside with
      | true => cases s <;> exact ih hrest hmem
      | false =>
          cases s with
          | plain d =>
              rcases List.mem_cons.mp hmem with heq | hmem
              · obtain ⟨rfl, rfl⟩ := Prod.mk.inj heq
                exact .inl ⟨rfl, hs.1⟩
              · exact ih hrest hmem
          | dollar e =>
              rcases List.mem_cons.mp hmem with heq | hmem
              · obtain ⟨-, rfl⟩ := Prod.mk.inj heq
                by_cases hany : rest.any Sign.isDollar = true
                · exact .inr (.inl (if_pos hany))
                · exact .inr (.inr (if_neg hany))
              · exact ih hrest hmem

/-- A character behind its backslash, if it has one. -/
def withBackslash : Bool × Char → List Char
  | (true, c) => ['\\', c]
  | (false, c) => [c]

theorem dollar_not_mem_writtenLine (h : ∀ s ∈ line, s.WellFormed)
    (hany : line.any Sign.isDollar = false) : '$' ∉ writtenLine line := by
  intro hmem
  obtain ⟨s, hs, hin⟩ := List.mem_flatMap.mp hmem
  have hsign : s.isDollar = false := by simpa using List.any_eq_false.mp hany s hs
  exact Sign.dollar_not_mem_written (h s hs) hsign hin

/-- Outside of mathematics the line is read on; inside, all is hidden up to the next dollar sign,
whatever was hidden before. -/
theorem blankOut_inlineMath_writtenLine (h : ∀ s ∈ line, s.WellFormed) :
    blankOut inlineMath (writtenLine line) = (leftOf false line).flatMap withBackslash ∧
      ∀ hidden, '$' ∉ hidden → line.any Sign.isDollar = true →
        blankOut inlineMath ('$' :: (hidden ++ writtenLine line)) =
          ' ' :: (leftOf true line).flatMap withBackslash := by
  induction line with
  | nil => exact ⟨rfl, fun _ _ hany => absurd hany Bool.false_ne_true⟩
  | cons s rest ih =>
      obtain ⟨hs, hrest⟩ := List.forall_mem_cons.mp h
      obtain ⟨houtside, hinside⟩ := ih hrest
      rw [writtenLine, List.flatMap_cons, ← writtenLine]
      cases s with
      | plain c =>
          have hc : c ≠ '$' := hs.2.1
          constructor
          · exact (blankOut_cons_of_none (inlineMath_startsWith c _ hc)).trans
              (congrArg (c :: ·) houtside)
          · -- The character joins those that are hidden.
            intro hidden hfree hany
            have hmore : '$' ∉ hidden ++ [c] := by simp [hfree, Ne.symm hc]
            have hhidden := hinside (hidden ++ [c]) hmore hany
            rwa [List.append_assoc] at hhidden
      | dollar escaped =>
          have hopens : blankOut inlineMath ('$' :: writtenLine rest) =
              (if rest.any Sign.isDollar then ' ' else '$') ::
                (leftOf (rest.any Sign.isDollar) rest).flatMap withBackslash := by
            cases hany : rest.any Sign.isDollar with
            | true => exact hinside [] List.not_mem_nil hany
            | false =>
                have hfree := dollar_not_mem_writtenLine hrest hany
                exact (blankOut_cons_of_none (inlineMath_eq_none hfree)).trans
                  (congrArg ('$' :: ·) houtside)
          have hcloses : ∀ hidden, '$' ∉ hidden →
              blankOut inlineMath ('$' :: (hidden ++ '$' :: writtenLine rest)) =
                ' ' :: (leftOf false rest).flatMap withBackslash :=
            fun hidden hfree =>
              (blankOut_inlineMath_append hfree _).trans (congrArg (' ' :: ·) houtside)
          cases escaped with
          | false => exact ⟨hopens, fun hidden hfree _ => hcloses hidden hfree⟩
          | true =>
              constructor
              · exact (blankOut_cons_of_none (inlineMath_startsWith '\\' _ (by decide))).trans
                  (congrArg ('\\' :: ·) hopens)
              · -- The backslash in front of the sign is hidden with the rest.
                intro hidden hfree _
                have hmore : '$' ∉ hidden ++ ['\\'] := by simp [hfree]
                have hhidden := hcloses (hidden ++ ['\\']) hmore
                rwa [List.append_assoc] at hhidden

/-! ## What is shown -/

/-- The pass for commands takes a backslash and the character behind it. -/
def commandPiece : Bool × Char → Piece Unit
  | (true, _) => .found ()
  | (false, c) => .plain c

theorem readsAs_command (h : ∀ s ∈ line, s.WellFormed) :
    ∀ p ∈ leftOf false line, ReadsAs command (withBackslash p) [commandPiece p] := by
  rintro ⟨escaped, c⟩ hmem
  have hc := of_mem_leftOf h hmem
  cases escaped with
  | false =>
      have hplain : c ≠ '\\' := by
        rcases hc with ⟨-, hc⟩ | rfl | rfl
        · exact hc
        · decide
        · decide
      exact command_startsWith.readsAs fun hmem => hplain (List.mem_singleton.mp hmem).symm
  | true =>
      have htaken : ∀ rest, command ('\\' :: ([c] ++ rest)) = some ((), rest) := by
        rcases hc with ⟨hplain, -⟩ | rfl | rfl
        · exact absurd hplain (by decide)
        · exact fun rest => rfl
        · exact fun rest => rfl
      exact readsAs_of_some htaken

theorem blankOut_command_left (h : ∀ s ∈ line, s.WellFormed) :
    (blankOut command ((leftOf false line).flatMap withBackslash)).map untied = shownLine line := by
  rw [(readsAs_flatMap (readsAs_command h)).blankOut_eq, List.map_flatMap, List.map_flatMap,
    shownLine, List.map_eq_flatMap]
  refine List.flatMap_congr fun (escaped, c) _ => ?_
  cases escaped <;> rfl

theorem prose_writtenLine (h : ∀ s ∈ line, s.WellFormed) :
    prose (writtenLine line) = shownLine line := by
  rw [prose_eq, stripComment_writtenLine h,
    blankOut_writtenLine cite_startsWith (fun _ => rfl) h,
    blankOut_writtenLine silentCommand_startsWith (fun _ => rfl) h,
    (blankOut_inlineMath_writtenLine h).1, blankOut_command_left h]

theorem wordsOn_writtenLine (h : ∀ s ∈ line, s.WellFormed) :
    wordsOn (writtenLine line) = bareWords (Text.words (shownLine line)) := by
  rw [wordsOn_eq, prose_writtenLine h]

/-- What stands between an escaped dollar sign and the next one, escaped or not, is lost. -/
theorem shownLine_between (front between : List Char) (escaped : Bool) (back : List Sign) :
    shownLine (front.map .plain ++ .dollar true ::
      (between.map .plain ++ .dollar escaped :: back)) =
        front.map untied ++ ' ' :: shownLine back := by
  have hfront : ∀ line, shownLine (front.map .plain ++ line) =
      front.map untied ++ shownLine line := by
    intro line
    induction front with
    | nil => rfl
    | cons c front ih => exact congrArg (untied c :: ·) ih
  have hbetween : ∀ line, leftOf true (between.map .plain ++ line) = leftOf true line := by
    intro line
    induction between with
    | nil => rfl
    | cons c between ih => exact ih
  have hany : (between.map Sign.plain ++ .dollar escaped :: back).any Sign.isDollar = true :=
    List.any_eq_true.mpr ⟨.dollar escaped, by simp, rfl⟩
  rw [hfront, shownLine, leftOf, hany, hbetween]
  rfl

/-! ## Escaped signs as they are meant -/

/-- The signs that are not escaped come in pairs, and no sign follows an escaped one. -/
structure Settled (line : List Sign) : Prop where
  paired : Even (line.count (.dollar false))
  last : line.Pairwise fun s t => s = .dollar true → t.isDollar = false

instance (line : List Sign) : Decidable (Settled line) :=
  decidable_of_iff (Even (line.count (.dollar false)) ∧
      line.Pairwise fun s t => s = .dollar true → t.isDollar = false)
    ⟨fun ⟨hp, hl⟩ => ⟨hp, hl⟩, fun h => ⟨h.paired, h.last⟩⟩

/-- Where the signs that are not escaped come in pairs with one more, that one has its partner. -/
theorem partner_mem (h : Even (line.count (.dollar false) + 1)) : .dollar false ∈ line := by
  rw [← List.count_pos_iff, Nat.pos_iff_ne_zero]
  intro hnone
  rw [hnone] at h
  exact absurd h (by decide)

theorem any_isDollar (h : s ∈ line) (hs : s.isDollar = true) : line.any Sign.isDollar = true :=
  List.any_eq_true.mpr ⟨s, h, hs⟩

/-- If no sign follows an escaped one, the same is shown of the line as of the one that is meant.  The
line may also begin inside of mathematics, and then one sign more has to come. -/
theorem shown_meant (hlast : line.Pairwise fun s t => s = .dollar true → t.isDollar = false)
    (hpaired : Even (line.count (.dollar false) + inside.toNat)) :
    (leftOf inside (line.map Sign.meant)).map shownOf = (leftOf inside line).map shownOf := by
  induction line generalizing inside with
  | nil => rfl
  | cons s rest ih =>
      obtain ⟨hs, hrest⟩ := List.pairwise_cons.mp hlast
      match s, inside with
      | .plain c, false =>
          rw [List.count_cons_of_ne (by simp)] at hpaired
          exact congrArg (untied c :: ·) (ih hrest hpaired)
      | .plain c, true =>
          rw [List.count_cons_of_ne (by simp)] at hpaired
          exact @ih true hrest hpaired
      | .dollar false, false =>
          rw [List.count_cons_self] at hpaired
          have hpartner := partner_mem hpaired
          have hmore := @ih true hrest hpaired
          rw [List.map_cons, Sign.meant, leftOf, leftOf, any_isDollar hpartner rfl,
            any_isDollar (List.mem_map_of_mem (f := Sign.meant) hpartner) rfl]
          exact congrArg (' ' :: ·) hmore
      | .dollar false, true =>
          have hmore : Even (rest.count (.dollar false) + false.toNat) := by
            rw [List.count_cons_self] at hpaired
            simpa [Nat.even_add_one] using hpaired
          exact ih hrest hmore
      | .dollar true, false =>
          rw [List.count_cons_of_ne (by decide)] at hpaired
          have hmore := ih hrest hpaired
          have hany : rest.any Sign.isDollar = false := by
            simpa using fun t ht => hs t ht rfl
          rw [List.map_cons, Sign.meant, leftOf, leftOf, hany]
          exact congrArg (' ' :: ·) hmore
      | .dollar true, true =>
          rw [List.count_cons_of_ne (by decide)] at hpaired
          exact absurd (hs _ (partner_mem hpaired) rfl) (by decide)

theorem Settled.shownLine_meant (h : Settled line) :
    shownLine (line.map Sign.meant) = shownLine line :=
  shown_meant h.last h.paired

/-! ## Documents -/

theorem meant_wellFormed (h : ∀ s ∈ line, s.WellFormed) :
    ∀ s ∈ line.map Sign.meant, s.WellFormed := by
  rw [List.forall_mem_map]
  intro s hs
  match s with
  | .plain c => exact h _ hs
  | .dollar false => exact trivial
  | .dollar true => exact ⟨by decide, by decide, by decide⟩

/-- The words of a document with dollar signs are those that are shown of its lines, where the signs
are paired whether they are escaped or not: if formulas end before an escaped sign, what stands between
it and the next one is lost.  If the signs that are not escaped come in pairs and no sign follows an
escaped one, the words are those of the document with spaces for its escaped signs. -/
theorem document_dollars (path : SourcePath) {text : String} {ls : List (List Sign)}
    (htext : Text.lines text.toList = ls.map writtenLine)
    (h : ∀ l ∈ ls, ∀ s ∈ l, s.WellFormed) :
    (document path text = ⟨path, (ls.zipIdx 1).flatMap fun (l, n) =>
        (bareWords (Text.words (shownLine l))).map fun w => ⟨w, n⟩⟩) ∧
      (∀ (front between : List Char) (escaped : Bool) (back : List Sign),
        shownLine (front.map .plain ++ .dollar true ::
          (between.map .plain ++ .dollar escaped :: back)) =
            front.map untied ++ ' ' :: shownLine back) ∧
      ∀ replaced : String,
        Text.lines replaced.toList = ls.map (fun l => writtenLine (l.map Sign.meant)) →
          (∀ l ∈ ls, Settled l) → document path replaced = document path text := by
  have hwords : ∀ l ∈ ls, wordsOn (writtenLine l) = bareWords (Text.words (shownLine l)) :=
    fun l hl => wordsOn_writtenLine (h l hl)
  have hdocument := flatMap_numberedLines htext hwords fun w n => (⟨w, n⟩ : Word)
  refine ⟨congrArg (Document.mk path) hdocument, shownLine_between, ?_⟩
  intro replaced hreplaced hsettled
  have hmeant : ∀ l ∈ ls, wordsOn (writtenLine (l.map Sign.meant)) =
      bareWords (Text.words (shownLine l)) := by
    intro l hl
    rw [wordsOn_writtenLine (meant_wellFormed (h l hl)), (hsettled l hl).shownLine_meant]
  have hsame := flatMap_numberedLines hreplaced hmeant fun w n => (⟨w, n⟩ : Word)
  exact congrArg (Document.mk path) (hsame.trans hdocument.symm)

/-- A formula and then a price. -/
def pricedLine : List Sign :=
  "all (".toList.map .plain ++ .dollar false :: ("n_\x7b1\x7d".toList.map .plain ++ .dollar false ::
    (") cost ".toList.map .plain ++ .dollar true :: "5.".toList.map .plain))

/-- The same line as it is written. -/
def pricedText : String :=
  "all ($n_\x7b1\x7d$) cost \\$5."

theorem document_dollars_priced :
    Text.lines pricedText.toList = [pricedLine].map writtenLine ∧
      (∀ l ∈ [pricedLine], ∀ s ∈ l, s.WellFormed) ∧ (∀ l ∈ [pricedLine], Settled l) ∧
      (document ⟨"paper.tex"⟩ pricedText).words = [⟨"all", 1⟩, ⟨"cost", 1⟩, ⟨"5", 1⟩] ∧
      document ⟨"paper.tex"⟩ "all ($n_\x7b1\x7d$) cost  5." =
        document ⟨"paper.tex"⟩ pricedText := by
  have htext : Text.lines pricedText.toList = [pricedLine].map writtenLine := by
    decide +kernel
  have hreplaced : Text.lines "all ($n_\x7b1\x7d$) cost  5.".toList =
      [pricedLine].map fun l => writtenLine (l.map Sign.meant) := by
    decide +kernel
  have hformed : ∀ l ∈ [pricedLine], ∀ s ∈ l, s.WellFormed := by decide
  have hsettled : ∀ l ∈ [pricedLine], Settled l := by decide
  obtain ⟨hdocument, -, hmeant⟩ := document_dollars ⟨"paper.tex"⟩ htext hformed
  refine ⟨htext, hformed, hsettled, (congrArg Document.words hdocument).trans ?_,
    hmeant _ hreplaced hsettled⟩
  decide +kernel

/-- Two prices. -/
def twoPrices : List Sign :=
  "costs ".toList.map .plain ++ .dollar true ::
    ("5 and ".toList.map .plain ++ .dollar true :: "6 each".toList.map .plain)

/-- The words between two escaped dollar signs are taken for mathematics. -/
theorem document_twoPrices :
    writtenLine twoPrices = "costs \\$5 and \\$6 each".toList ∧
      writtenLine (twoPrices.map Sign.meant) = "costs  5 and  6 each".toList ∧
      (∀ s ∈ twoPrices, s.WellFormed) ∧
      (document ⟨"paper.tex"⟩ "costs \\$5 and \\$6 each").words =
        [⟨"costs", 1⟩, ⟨"6", 1⟩, ⟨"each", 1⟩] ∧
      (document ⟨"paper.tex"⟩ "costs  5 and  6 each").words =
        [⟨"costs", 1⟩, ⟨"5", 1⟩, ⟨"and", 1⟩, ⟨"6", 1⟩, ⟨"each", 1⟩] := by
  refine ⟨by decide, by decide, by decide, ?_, ?_⟩
  · decide +kernel
  · decide +kernel

end BibAudit.Tex
