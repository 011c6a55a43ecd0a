/-
# BibAudit.Proofs.Value.Delimiter — which delimiter a value has.

A value is one brace group if its last character closes its first one: in between no level falls below
that of the group, and behind the last character nothing is open.  A value counts as one quoted string
if its first and its last character are quotes, whatever stands in between.

So the two rules part on concatenations.  One that begins with a brace group is bare, since the group
closes before the end; one that begins and ends with a quoted string is taken for a single string.  No
other concatenation has a delimiter.
-/
import BibAudit.Proofs.Bib.Form
import BibAudit.Proofs.Value.Brackets
import BibAudit.Text.Class.Number

namespace BibAudit.Value

variable {cs rest inner x : List Char} {c : Char} {depth index : Nat} {level : Int}

/-! ## The balance, character by character -/

theorem balance_cons (hc : c ≠ '\\') (rest : List Char) :
    balance (c :: rest) = weight c + balance rest := by
  have heven : 0 % 2 = 0 := rfl
  rw [balance_eq_net heven, net_cons oddHides 0 hc, balance_eq_net heven]
  rfl

theorem last_of_cons (h : (c :: cs).getLast? ≠ some '\\') : cs.getLast? ≠ some '\\' := by
  intro hlast
  apply h
  rw [List.getLast?_cons, hlast]
  rfl

/-- A text that does not end in a backslash hides nothing of what stands behind it. -/
theorem balance_append (h : cs.getLast? ≠ some '\\') (more : List Char) :
    balance (cs ++ more) = balance cs + balance more := by
  -- The cases are those of the count: a backslash hides the next character, so they go in pairs.
  induction cs using balance.induct with
  | case1 => simp [balance]
  | case2 => exact absurd rfl h
  | case3 c rest ih => exact ih (last_of_cons (last_of_cons h))
  | case4 rest ih | case5 rest ih =>
      rw [List.cons_append, balance_cons (by decide), balance_cons (by decide),
        ih (last_of_cons h), Int.add_assoc]
  | case6 c rest hlone hpair _ _ ih =>
      have hc : c ≠ '\\' := ne_backslash hlone hpair
      rw [List.cons_append, balance_cons hc, balance_cons hc, ih (last_of_cons h), Int.add_assoc]

/-- Where no backslash stands, every brace counts. -/
theorem balance_eq_surplus (h : '\\' ∉ cs) : balance cs = surplus cs := by
  induction cs with
  | nil => rfl
  | cons c rest ih =>
      obtain ⟨hc, hrest⟩ := not_or.mp (List.mem_cons.not.mp h)
      rw [balance_cons (Ne.symm hc), surplus_cons, ih hrest]

theorem balance_blanks (h : ∀ c ∈ cs, Text.isBlank c = true) : balance cs = 0 := by
  induction cs with
  | nil => rfl
  | cons c rest ih =>
      obtain ⟨hc, hrest⟩ := List.forall_mem_cons.mp h
      have hplain : c ≠ '\\' := by
        rintro rfl
        cases hc
      rw [balance_cons hplain, weight_eq_zero (isBrace_of_isBlank hc), ih hrest]
      rfl

/-! ## The closing brace -/

/-- The levels that are open before a text stay open all over it, and a closing brace right behind it
closes the last of them. -/
def Encloses (level : Int) (inner : List Char) : Prop :=
  (∀ part, part <+: inner → 0 < level + balance part) ∧ level + balance (inner ++ ['}']) = 0

theorem Encloses.pos (h : Encloses level inner) : 0 < level := by
  have hstart := h.1 [] List.nil_prefix
  rw [balance] at hstart
  omega

theorem encloses_nil : Encloses level [] ↔ level = 1 := by
  have hcloses : balance ['}'] = -1 := rfl
  constructor
  · intro h
    have hend : level + balance ['}'] = 0 := h.2
    omega
  · rintro rfl
    refine ⟨?_, rfl⟩
    intro part hp
    rw [List.prefix_nil.mp hp]
    decide

/-- A character that hides nothing is passed at its own weight. -/
theorem encloses_cons (hc : c ≠ '\\') :
    Encloses level (c :: inner) ↔ 0 < level ∧ Encloses (level + weight c) inner := by
  have hpassed : ∀ part, level + balance (c :: part) = level + weight c + balance part := by
    intro part
    rw [balance_cons hc, Int.add_assoc]
  unfold Encloses
  rw [List.cons_append, hpassed]
  constructor
  · rintro ⟨hlevels, hend⟩
    refine ⟨Encloses.pos ⟨hlevels, by rw [List.cons_append, hpassed]; exact hend⟩, ?_, hend⟩
    intro part hp
    rw [← hpassed]
    exact hlevels _ ((List.prefix_cons_inj c).mpr hp)
  · rintro ⟨hpos, hlevels, hend⟩
    refine ⟨?_, hend⟩
    intro part hp
    rcases List.prefix_cons_iff.mp hp with rfl | ⟨less, rfl, hless⟩
    · rw [balance]
      omega
    · rw [hpassed]
      exact hlevels less hless

/-- A backslash and what it hides are passed together, at no weight. -/
theorem encloses_hidden (c : Char) : Encloses level ('\\' :: c :: inner) ↔ Encloses level inner := by
  have hpassed : ∀ part, balance ('\\' :: c :: part) = balance part := fun part => by rw [balance]
  constructor
  · rintro ⟨hlevels, hend⟩
    refine ⟨?_, ?_⟩
    · intro part hp
      rw [← hpassed]
      exact hlevels _ ((List.prefix_cons_inj _).mpr ((List.prefix_cons_inj c).mpr hp))
    · rw [← hpassed]
      exact hend
  · intro h
    refine ⟨?_, ?_⟩
    · intro part hp
      rcases List.prefix_cons_iff.mp hp with rfl | ⟨less, rfl, hless⟩
      · exact h.1 [] List.nil_prefix
      · rcases List.prefix_cons_iff.mp hless with rfl | ⟨least, rfl, hleast⟩
        · exact h.1 [] List.nil_prefix
        · rw [hpassed]
          exact h.1 least hleast
    · show level + balance ('\\' :: c :: (inner ++ ['}'])) = 0
      rw [hpassed]
      exact h.2

/-- A closing brace right behind a backslash closes nothing. -/
theorem not_encloses_backslash : ¬ Encloses level ['\\'] := by
  intro h
  have hpos := h.pos
  have hend : level + balance ['\\', '}'] = 0 := h.2
  have hnone : balance ['\\', '}'] = 0 := rfl
  omega

/-- The closing brace at this index closes the last of the levels that are open before the text. -/
def ClosesAt (level : Int) (cs : List Char) (index : Nat) : Prop :=
  ∃ inner rest, cs = inner ++ '}' :: rest ∧ inner.length = index ∧ Encloses level inner

theorem not_closesAt_nil : ¬ ClosesAt level [] index := by
  rintro ⟨inner, rest, hcs, -⟩
  exact List.append_ne_nil_of_right_ne_nil inner (List.cons_ne_nil _ _) hcs.symm

/-- A character that does not close the last level leaves the closing brace to the rest. -/
theorem closesAt_cons (hc : c ≠ '\\') (hpos : 0 < level) (hopen : 0 < level + weight c) :
    ClosesAt level (c :: rest) index ↔ ∃ i, ClosesAt (level + weight c) rest i ∧ i + 1 = index := by
  constructor
  · rintro ⟨inner, after, hcs, rfl, h⟩
    cases inner with
    | nil =>
        obtain ⟨rfl, rfl⟩ := List.cons.inj hcs
        have hlevel := encloses_nil.mp h
        have hcloses : weight '}' = -1 := rfl
        omega
    | cons d inner =>
        obtain ⟨rfl, rfl⟩ := List.cons.inj hcs
        exact ⟨inner.length, ⟨inner, after, rfl, rfl, ((encloses_cons hc).mp h).2⟩, rfl⟩
  · rintro ⟨i, ⟨inner, after, rfl, rfl, h⟩, rfl⟩
    exact ⟨c :: inner, after, rfl, rfl, (encloses_cons hc).mpr ⟨hpos, h⟩⟩

theorem closesAt_hidden (c : Char) (rest : List Char) :
    ClosesAt level ('\\' :: c :: rest) index ↔ ∃ i, ClosesAt level rest i ∧ i + 2 = index := by
  constructor
  · rintro ⟨inner, after, hcs, rfl, h⟩
    match inner with
    | [] => cases (List.cons.inj hcs).1
    | [d] =>
        obtain ⟨rfl, -⟩ := List.cons.inj hcs
        exact absurd h not_encloses_backslash
    | d :: e :: inner =>
        obtain ⟨rfl, hrest⟩ := List.cons.inj hcs
        obtain ⟨rfl, rfl⟩ := List.cons.inj hrest
        exact ⟨inner.length, ⟨inner, after, rfl, rfl, (encloses_hidden c).mp h⟩, rfl⟩
  · rintro ⟨i, ⟨inner, after, rfl, rfl, h⟩, rfl⟩
    exact ⟨'\\' :: c :: inner, after, rfl, rfl, (encloses_hidden c).mpr h⟩

/-- The search for the closing brace finds the one that closes the last level. -/
theorem closingFrom_eq_some (hd : 0 < depth) :
    closingFrom depth cs = some index ↔ ClosesAt depth cs index := by
  induction depth, cs using closingFrom.induct generalizing index with
  | case1 depth =>
      rw [closingFrom]
      exact ⟨fun h => (by cases h), fun h => absurd h not_closesAt_nil⟩
  | case2 depth =>
      rw [closingFrom]
      refine ⟨fun h => (by cases h), ?_⟩
      rintro ⟨inner, rest, hcs, -⟩
      cases inner with
      | nil => cases (List.cons.inj hcs).1
      | cons d inner =>
          exact absurd (List.cons.inj hcs).2.symm
            (List.append_ne_nil_of_right_ne_nil inner (List.cons_ne_nil _ _))
  | case3 depth c rest ih =>
      rw [closingFrom, closesAt_hidden, Option.map_eq_some_iff]
      simp only [ih hd]
  | case4 depth rest ih =>
      have hopens : weight '{' = 1 := rfl
      rw [closingFrom, closesAt_cons (by decide) (by omega) (by omega), Option.map_eq_some_iff]
      simp only [ih (Nat.succ_pos depth)]
      rfl
  | case5 rest => omega
  | case6 rest =>
      -- The last level closes here, and nowhere further on.
      rw [closingFrom]
      constructor
      · rintro ⟨⟩
        exact ⟨[], rest, rfl, rfl, encloses_nil.mpr rfl⟩
      · rintro ⟨inner, after, hcs, rfl, h⟩
        cases inner with
        | nil => rfl
        | cons d inner =>
            obtain ⟨rfl, -⟩ := List.cons.inj hcs
            have hpos := ((encloses_cons (by decide)).mp h).2.pos
            have hcloses : weight '}' = -1 := rfl
            omega
  | case7 depth rest ih =>
      have hcloses : weight '}' = -1 := rfl
      have hless : ((depth + 2 : Nat) : Int) + weight '}' = ((depth + 1 : Nat) : Int) := by omega
      rw [closingFrom, closesAt_cons (by decide) (by omega) (by omega), Option.map_eq_some_iff, hless]
      simp only [ih (Nat.succ_pos depth)]
  | case8 depth c rest hlast hpair hopen hzero hone hsucc ih =>
      have hc : c ≠ '\\' := ne_backslash hlast hpair
      have hclose : c ≠ '}' := by
        rcases depth with _ | _ | depth
        · exact absurd hd (Nat.lt_irrefl 0)
        · exact hone rfl
        · exact hsucc depth rfl
      have hplain : weight c = 0 := by
        rw [weight, if_neg fun he => hopen he, if_neg hclose]
      have hstep : closingFrom depth (c :: rest) = (closingFrom depth rest).map (· + 1) := by
        rw [closingFrom] <;> assumption
      rw [hstep, closesAt_cons hc (by omega) (by omega), Option.map_eq_some_iff, hplain, Int.add_zero]
      simp only [ih hd]

/-! ## Values -/

theorem delimiter_scanField (raw : List Char) :
    (scanField raw).delimiter = (splitDelimiter (Text.trim raw)).1 :=
  rfl

/-- The first and the last character of a text of two or more. -/
theorem eq_enclosed {first last : Char} (hfirst : cs.head? = some first)
    (hlast : cs.getLast? = some last) (hlong : 2 ≤ cs.length) :
    ∃ inner, cs = first :: (inner ++ [last]) := by
  obtain ⟨rest, rfl⟩ := List.head?_eq_some_iff.mp hfirst
  rcases List.eq_nil_or_concat' rest with rfl | ⟨inner, c, rfl⟩
  · simp at hlong
  · rw [← List.cons_append, List.getLast?_concat] at hlast
    obtain rfl := Option.some.inj hlast
    exact ⟨inner, rfl⟩

theorem splitDelimiter_quotes : (splitDelimiter cs).1 = .quotes ↔
    ∃ inner, cs = '"' :: (inner ++ ['"']) := by
  unfold splitDelimiter
  constructor
  · intro h
    split at h
    · next hquotes =>
        simp only [Bool.and_eq_true, decide_eq_true_eq, beq_iff_eq] at hquotes
        exact eq_enclosed hquotes.1.2 hquotes.2 hquotes.1.1
    · split at h <;> cases h
  · rintro ⟨inner, rfl⟩
    have hlast : ('"' :: (inner ++ ['"'])).getLast? = some '"' := by
      rw [← List.cons_append, List.getLast?_concat]
    rw [if_pos]
    simp [hlast]

/-- A value is one brace group exactly if its last character closes its first one. -/
theorem splitDelimiter_braces : (splitDelimiter cs).1 = .braces ↔
    ∃ inner, cs = '{' :: (inner ++ ['}']) ∧ Encloses 1 inner := by
  have hclosing : ∀ rest k, closing? ('{' :: rest) = some (k + 1) ↔ ClosesAt 1 rest k := by
    intro rest k
    rw [closing?, closingFrom, Option.map_eq_some_iff]
    simp only [closingFrom_eq_some Nat.one_pos, Nat.add_right_cancel_iff, exists_eq_right]
    rfl
  unfold splitDelimiter
  constructor
  · intro h
    split at h
    · cases h
    · split at h
      · next hbraces =>
          rw [Bool.and_eq_true, beq_iff_eq, beq_iff_eq] at hbraces
          obtain ⟨hopen, hend⟩ := hbraces
          obtain ⟨rest, rfl⟩ := List.head?_eq_some_iff.mp hopen
          -- The closing brace is the last character, so nothing stands behind it.
          obtain ⟨k, hk⟩ : ∃ k, rest.length = k + 1 := by
            cases rest with
            | nil => cases hend
            | cons c rest => exact ⟨rest.length, rfl⟩
          rw [List.length_cons, Nat.add_sub_cancel, hk, hclosing] at hend
          obtain ⟨inner, after, rfl, hinner, hencloses⟩ := hend
          rw [List.length_append, List.length_cons] at hk
          obtain rfl := List.length_eq_zero_iff.mp (by omega : after.length = 0)
          exact ⟨inner, rfl, hencloses⟩
      · cases h
  · rintro ⟨inner, rfl, hencloses⟩
    have hend : closing? ('{' :: (inner ++ ['}'])) = some (inner.length + 1) :=
      (hclosing _ _).mpr ⟨inner, [], rfl, rfl, hencloses⟩
    rw [if_neg, if_pos]
    · rw [hend]
      simp
    · simp

theorem splitDelimiter_group (h : Encloses 1 inner) :
    splitDelimiter ('{' :: (inner ++ ['}'])) = (.braces, inner) := by
  have hbraces := splitDelimiter_braces.mpr ⟨inner, rfl, h⟩
  unfold splitDelimiter at hbraces ⊢
  split at hbraces
  · cases hbraces
  · next hquotes =>
      rw [if_neg hquotes]
      split at hbraces
      · next hend =>
          rw [if_pos hend, List.tail_cons, List.dropLast_concat]
      · cases hbraces

/-! ## Concatenations -/

/-- A piece of a concatenation. -/
inductive Piece
  /-- A brace group around this text. -/
  | group (inner : List Char)
  /-- A quoted string with this text. -/
  | quoted (inner : List Char)
  /-- A number or a macro name. -/
  | word (letters : List Char)
deriving DecidableEq, Repr

namespace Piece

/-- The piece as it is written. -/
def written : Piece → List Char
  | group inner => '{' :: (inner ++ ['}'])
  | quoted inner => '"' :: (inner ++ ['"'])
  | word letters => letters

/-- What delimits the piece, standing alone. -/
def delimiter : Piece → Delimiter
  | group _ => .braces
  | quoted _ => .quotes
  | word _ => .bare

/-- A group is balanced, a string holds neither quotes nor braces, a word is made of letters and
digits; there are no backslashes. -/
def WellFormed : Piece → Prop
  | group inner => '\\' ∉ inner ∧ Balanced (inner.filter isBrace)
  | quoted inner => ∀ c ∈ inner, c ≠ '"' ∧ c ≠ '\\' ∧ isBrace c = false
  | word letters => letters ≠ [] ∧ ∀ c ∈ letters, Text.isAlphanumeric c = true

end Piece

/-- Pieces joined by a number sign, blanks around it. -/
def concatenation (ps : List Piece) : List Char :=
  [' ', '#', ' '].intercalate (ps.map Piece.written)

/-- The first and the last piece are quoted strings. -/
def betweenQuotes (ps : List Piece) : Bool :=
  ps.head?.any (·.delimiter == .quotes) && ps.getLast?.any (·.delimiter == .quotes)

theorem isBlank_of_isAlphanumeric (h : Text.isAlphanumeric c = true) : Text.isBlank c = false := by
  rw [← Bool.not_eq_true]
  intro hblank
  have hall : ∀ n ∈ Bib.blankCodes, Text.isAlphanumeric (Char.ofNat n) = false := by decide +kernel
  have hnone := hall _ (Bib.mem_blankCodes hblank)
  rw [Char.ofNat_toNat, h] at hnone
  cases hnone

/-- Nothing closes a balanced group before its end. -/
theorem Piece.WellFormed.encloses (h : (Piece.group inner).WellFormed) : Encloses 1 inner := by
  obtain ⟨hplain, hbalanced⟩ := h
  have hlevel : surplus inner = 0 := by
    rw [← surplus_filter isBrace rfl rfl inner]
    exact hbalanced.surplus_eq
  have hend : balance (inner ++ ['}']) = surplus inner + weight '}' := by
    rw [balance_eq_surplus (by simp [hplain]), surplus_concat]
  have hcloses : weight '}' = -1 := rfl
  refine ⟨?_, by omega⟩
  intro part hp
  have hpart : 0 ≤ surplus (part.filter isBrace) := hbalanced.surplus_nonneg _ (hp.filter isBrace)
  rw [surplus_filter isBrace rfl rfl] at hpart
  rw [balance_eq_surplus fun hc => hplain (hp.subset hc)]
  omega

/-- A closing brace that closes the last level is the only one. -/
theorem ClosesAt.unique {i j : Nat} (hi : ClosesAt 1 cs i) (hj : ClosesAt 1 cs j) : i = j := by
  have hfound : closingFrom 1 cs = some i := (closingFrom_eq_some Nat.one_pos).mpr hi
  rw [(closingFrom_eq_some Nat.one_pos).mpr hj] at hfound
  exact (Option.some.inj hfound).symm

/-! ### The ends of a piece -/

variable {p q : Piece} {ps : List Piece}

theorem head_written (h : p.WellFormed) : ∃ c, p.written.head? = some c ∧ Text.isBlank c = false ∧
    (c = '{' ↔ p.delimiter = .braces) ∧ (c = '"' ↔ p.delimiter = .quotes) := by
  cases p with
  | group inner => exact ⟨'{', rfl, rfl, by simp [Piece.delimiter]⟩
  | quoted inner => exact ⟨'"', rfl, rfl, by simp [Piece.delimiter]⟩
  | word letters =>
      obtain ⟨c, rest, rfl⟩ := List.exists_cons_of_ne_nil h.1
      have hc : Text.isAlphanumeric c = true := h.2 c List.mem_cons_self
      refine ⟨c, rfl, isBlank_of_isAlphanumeric hc, ?_, ?_⟩
      · refine ⟨?_, fun hd => by cases hd⟩
        rintro rfl
        exact absurd hc (by decide +kernel)
      · refine ⟨?_, fun hd => by cases hd⟩
        rintro rfl
        exact absurd hc (by decide +kernel)

theorem last_written (h : p.WellFormed) : ∃ c, p.written.getLast? = some c ∧
    Text.isBlank c = false ∧ (c = '"' ↔ p.delimiter = .quotes) := by
  cases p with
  | group inner =>
      refine ⟨'}', ?_, rfl, by simp [Piece.delimiter]⟩
      show ('{' :: inner ++ ['}']).getLast? = some '}'
      exact List.getLast?_concat
  | quoted inner =>
      refine ⟨'"', ?_, rfl, by simp [Piece.delimiter]⟩
      show ('"' :: inner ++ ['"']).getLast? = some '"'
      exact List.getLast?_concat
  | word letters =>
      obtain ⟨front, c, rfl⟩ := (List.eq_nil_or_concat' letters).resolve_left h.1
      have hc : Text.isAlphanumeric c = true := h.2 c (by simp)
      refine ⟨c, List.getLast?_concat, isBlank_of_isAlphanumeric hc, ?_⟩
      refine ⟨?_, fun hd => by cases hd⟩
      rintro rfl
      exact absurd hc (by decide +kernel)

/-! ### The ends of a concatenation -/

theorem concatenation_cons_cons (p q : Piece) (ps : List Piece) :
    concatenation (p :: q :: ps) = p.written ++ ' ' :: '#' :: ' ' :: concatenation (q :: ps) := by
  unfold concatenation
  rw [List.map_cons, List.map_cons, List.intercalate_cons_cons, List.append_assoc]
  rfl

theorem concatenation_singleton (p : Piece) : concatenation [p] = p.written :=
  List.intercalate_singleton

theorem head_concatenation (h : p.WellFormed) (ps : List Piece) :
    (concatenation (p :: ps)).head? = p.written.head? := by
  cases ps with
  | nil => rw [concatenation_singleton]
  | cons q ps =>
      obtain ⟨c, hc, -⟩ := head_written h
      rw [concatenation_cons_cons, List.head?_append, hc]
      rfl

theorem last_concatenation (h : ∀ q ∈ ps, q.WellFormed) (hp : ps.getLast? = some p) :
    (concatenation ps).getLast? = p.written.getLast? := by
  induction ps with
  | nil => cases hp
  | cons q ps ih =>
      cases ps with
      | nil =>
          obtain rfl : q = p := by simpa using hp
          rw [concatenation_singleton]
      | cons r ps =>
          have hps : ∀ q ∈ r :: ps, q.WellFormed := fun s hs => h s (List.mem_cons_of_mem q hs)
          have hlast := ih hps (by rwa [List.getLast?_cons_cons] at hp)
          obtain ⟨c, hc, -⟩ := last_written (hps p (List.mem_of_getLast? (by simpa using hp)))
          rw [concatenation_cons_cons, List.getLast?_append, List.getLast?_cons_cons,
            List.getLast?_cons_cons, List.getLast?_cons, hlast, hc]
          rfl

/-- The pieces stand at the ends, so no blank does. -/
theorem tight_concatenation (h : ∀ q ∈ p :: ps, q.WellFormed) :
    Text.Tight (concatenation (p :: ps)) := by
  obtain ⟨last, hlast⟩ : ∃ last, (p :: ps).getLast? = some last := ⟨_, List.getLast?_cons⟩
  constructor
  · intro c hc
    obtain ⟨d, hd, hblank, -⟩ := head_written (h p List.mem_cons_self)
    rw [head_concatenation (h p List.mem_cons_self), hd] at hc
    obtain rfl := Option.some.inj hc
    exact hblank
  · intro c hc
    obtain ⟨d, hd, hblank, -⟩ := last_written (h last (List.mem_of_getLast? hlast))
    rw [last_concatenation h hlast, hd] at hc
    obtain rfl := Option.some.inj hc
    exact hblank

theorem delimiter_concatenation (h : ∀ q ∈ p :: ps, q.WellFormed) :
    (scanField (concatenation (p :: ps))).delimiter =
      (splitDelimiter (concatenation (p :: ps))).1 := by
  rw [delimiter_scanField, (tight_concatenation h).trim_eq]

theorem length_written_of_quotes (h : p.delimiter = .quotes) : 2 ≤ p.written.length := by
  cases p with
  | quoted inner =>
      show 2 ≤ ('"' :: (inner ++ ['"'])).length
      rw [List.length_cons, List.length_append, List.length_singleton]
      omega
  | group inner => cases h
  | word letters => cases h

theorem length_written_le (p : Piece) (ps : List Piece) :
    p.written.length ≤ (concatenation (p :: ps)).length := by
  cases ps with
  | nil => rw [concatenation_singleton]
  | cons q ps =>
      rw [concatenation_cons_cons, List.length_append]
      exact Nat.le_add_right _ _

theorem betweenQuotes_cons (hlast : (p :: ps).getLast? = some q) :
    betweenQuotes (p :: ps) = true ↔ p.delimiter = .quotes ∧ q.delimiter = .quotes := by
  unfold betweenQuotes
  rw [hlast]
  simp

/-- A concatenation is taken for one string exactly if strings stand at both of its ends. -/
theorem quotes_concatenation (h : ∀ q ∈ p :: ps, q.WellFormed) :
    (scanField (concatenation (p :: ps))).delimiter = .quotes ↔ betweenQuotes (p :: ps) = true := by
  obtain ⟨last, hlast⟩ : ∃ last, (p :: ps).getLast? = some last := ⟨_, List.getLast?_cons⟩
  obtain ⟨a, ha, -, -, hfirst⟩ := head_written (h p List.mem_cons_self)
  obtain ⟨z, hz, -, hend⟩ := last_written (h last (List.mem_of_getLast? hlast))
  have hhead : (concatenation (p :: ps)).head? = some a := by
    rw [head_concatenation (h p List.mem_cons_self), ha]
  have hfinal : (concatenation (p :: ps)).getLast? = some z := by
    rw [last_concatenation h hlast, hz]
  rw [delimiter_concatenation h, splitDelimiter_quotes, betweenQuotes_cons hlast, ← hfirst, ← hend]
  constructor
  · rintro ⟨inner, hinner⟩
    rw [hinner] at hhead hfinal
    rw [← List.cons_append, List.getLast?_concat] at hfinal
    exact ⟨(Option.some.inj hhead).symm, (Option.some.inj hfinal).symm⟩
  · rintro ⟨rfl, rfl⟩
    refine eq_enclosed hhead hfinal ?_
    have hlong : 2 ≤ p.written.length := length_written_of_quotes (hfirst.mp rfl)
    exact hlong.trans (length_written_le p ps)

/-- No concatenation of two pieces or more is taken for a group. -/
theorem not_braces_concatenation (h : ∀ r ∈ p :: q :: ps, r.WellFormed) :
    (scanField (concatenation (p :: q :: ps))).delimiter ≠ .braces := by
  rw [delimiter_concatenation h, Ne, splitDelimiter_braces]
  rintro ⟨inner, hinner, hencloses⟩
  have hp : p.WellFormed := h p List.mem_cons_self
  obtain ⟨a, ha, -, hopen, -⟩ := head_written hp
  have hhead : a = '{' := by
    rw [← head_concatenation hp (q :: ps), hinner] at ha
    exact (Option.some.inj ha).symm
  cases p with
  | group x =>
      -- The group closes before the number sign, and so not at the end.
      rw [concatenation_cons_cons] at hinner
      have hrest : inner ++ ['}'] = x ++ '}' :: (' ' :: '#' :: ' ' :: concatenation (q :: ps)) := by
        have hsame : x ++ ['}'] ++ ' ' :: '#' :: ' ' :: concatenation (q :: ps) = inner ++ ['}'] :=
          (List.cons.inj hinner).2
        rw [← hsame, List.append_assoc]
        rfl
      have hshort : ClosesAt 1 (inner ++ ['}']) x.length := ⟨x, _, hrest, rfl, hp.encloses⟩
      have hlong : ClosesAt 1 (inner ++ ['}']) inner.length := ⟨inner, [], rfl, rfl, hencloses⟩
      have hlength := congrArg List.length hrest
      rw [List.length_append, List.length_append, ← hshort.unique hlong] at hlength
      simp at hlength
  | quoted x => cases hopen.mp hhead
  | word x => cases hopen.mp hhead

/-! ## Delimiters -/

/-- Quotes and braces told apart, nothing else is left. -/
theorem Delimiter.eq_of_iff {d e : Delimiter} (hquotes : d = .quotes ↔ e = .quotes)
    (hbraces : d = .braces ↔ e = .braces) : d = e := by
  cases d with
  | quotes => exact (hquotes.mp rfl).symm
  | braces => exact (hbraces.mp rfl).symm
  | bare =>
      cases e with
      | quotes => exact hquotes.mpr rfl
      | braces => exact hbraces.mpr rfl
      | bare => rfl

theorem braces_single (h : p.WellFormed) :
    (scanField (concatenation [p])).delimiter = .braces ↔ p.delimiter = .braces := by
  have hone : ∀ q ∈ [p], q.WellFormed := fun q hq => List.mem_singleton.mp hq ▸ h
  rw [delimiter_concatenation hone, concatenation_singleton, splitDelimiter_braces]
  constructor
  · rintro ⟨inner, hinner, -⟩
    obtain ⟨a, ha, -, hopen, -⟩ := head_written h
    rw [hinner] at ha
    exact hopen.mp (Option.some.inj ha).symm
  · intro hd
    cases p with
    | group inner => exact ⟨inner, rfl, h.encloses⟩
    | quoted inner => cases hd
    | word letters => cases hd

theorem delimiter_single (h : p.WellFormed) : (scanField p.written).delimiter = p.delimiter := by
  have hone : ∀ q ∈ [p], q.WellFormed := fun q hq => List.mem_singleton.mp hq ▸ h
  have hquotes := quotes_concatenation hone
  have hbraces := braces_single h
  rw [betweenQuotes_cons (q := p) rfl, and_self_iff] at hquotes
  rw [concatenation_singleton] at hquotes hbraces
  exact Delimiter.eq_of_iff hquotes hbraces

/-- Of a single piece, the delimiter is found.  Of two or more the value is bare, unless a quoted
string stands at either end: then it is taken for a single string, for its first quote need not be
closed by the last one.  A value counts as one brace group exactly if its last character closes its
first one, and as one quoted string exactly if quotes stand at both ends. -/
theorem scanField_delimiter (p : Piece) (ps : List Piece) (raw : List Char) :
    (p.WellFormed → (scanField p.written).delimiter = p.delimiter) ∧
      (2 ≤ ps.length → (∀ q ∈ ps, q.WellFormed) →
        (scanField (concatenation ps)).delimiter = if betweenQuotes ps then .quotes else .bare) ∧
      ((scanField raw).delimiter = .braces ↔
        ∃ inner, Text.trim raw = '{' :: (inner ++ ['}']) ∧ Encloses 1 inner) ∧
      ((scanField raw).delimiter = .quotes ↔
        ∃ inner, Text.trim raw = '"' :: (inner ++ ['"'])) := by
  refine ⟨delimiter_single, ?_, splitDelimiter_braces, splitDelimiter_quotes⟩
  intro hmore h
  match ps with
  | p :: q :: ps =>
      have hquotes := quotes_concatenation h
      have hbraces := not_braces_concatenation h
      cases hends : betweenQuotes (p :: q :: ps) with
      | true => exact hquotes.mpr hends
      | false =>
          apply Delimiter.eq_of_iff
          · rw [hquotes, hends]
            decide
          · exact iff_of_false hbraces (by decide)

/-- A nested group, a word and a string. -/
def mixedPieces : List Piece :=
  [.group "a\x7bb\x7dc".toList, .word "jan".toList, .quoted "d # e".toList]

theorem scanField_delimiter_mixed :
    (Piece.WellFormed (.quoted "a b".toList) ∧
        (scanField "\"a b\"".toList).delimiter = .quotes) ∧
      2 ≤ mixedPieces.length ∧ (∀ p ∈ mixedPieces, p.WellFormed) ∧
      (scanField "\x7ba\x7bb\x7dc\x7d # jan # \"d # e\"".toList).delimiter = .bare := by
  have hstring : Piece.WellFormed (.quoted "a b".toList) := by
    simp [Piece.WellFormed, isBrace]
  have hpieces : ∀ p ∈ mixedPieces, p.WellFormed := by
    have hletters : ∀ c ∈ "jan".toList, Text.isAlphanumeric c = true :=
      List.all_eq_true.mp (by decide +kernel)
    simp only [mixedPieces, List.forall_mem_cons, List.not_mem_nil, false_implies, implies_true,
      and_true]
    refine ⟨⟨by decide, .group .nil .nil⟩, ⟨by decide, hletters⟩, ?_⟩
    simp [Piece.WellFormed, isBrace]
  obtain ⟨hsingle, hmany, -⟩ := scanField_delimiter (.quoted "a b".toList) mixedPieces []
  exact ⟨⟨hstring, hsingle hstring⟩, by decide, hpieces, hmany (by decide) hpieces⟩

/-- Two strings, joined. -/
def joinedStrings : List Piece :=
  [.quoted ['a'], .quoted ['b']]

/-- Two strings joined are taken for one, although the third character closes the first quote. -/
theorem scanField_joinedStrings :
    2 ≤ joinedStrings.length ∧ (∀ p ∈ joinedStrings, p.WellFormed) ∧
      concatenation joinedStrings = "\"a\" # \"b\"".toList ∧
      (scanField (concatenation joinedStrings)).delimiter = .quotes := by
  refine ⟨by decide, ?_, by decide, by decide⟩
  simp [joinedStrings, Piece.WellFormed, isBrace]

end BibAudit.Value
