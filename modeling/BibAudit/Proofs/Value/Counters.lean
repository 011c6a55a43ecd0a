/-
# BibAudit.Proofs.Value.Counters — which braces the counters count.

Three functions count braces and pass over those that a backslash hides.  The balance and the search
for the closing brace take backslashes in pairs, so that a backslash may itself be hidden; reading a
content looks at the character right before the brace and nothing else.  The rules differ on a brace
behind an even number of backslashes, two or more, and on no other brace: counted by the balance, it
is a visible character to the reading.

So the balance is what the reading leaves open plus the surplus of opening braces among the contested
ones.  A value that is one brace group is read without error if it holds no contested brace; with one
it may be reported although its braces match.
-/
import BibAudit.Proofs.Text.Trim
import BibAudit.Value.Scan

namespace BibAudit.Value

/-- An opening or a closing brace. -/
def isBrace (c : Char) : Bool :=
  c == '{' || c == '}'

/-- The braces behind an even number of backslashes, two or more; `run` backslashes stand right before
the text. -/
def contested : Nat → List Char → List Char
  | _, [] => []
  | run, c :: rest =>
    if c = '\\' then contested (run + 1) rest
    else if isBrace c ∧ run ≠ 0 ∧ run % 2 = 0 then c :: contested 0 rest
    else contested 0 rest

/-- How many more opening than closing braces there are, none being hidden. -/
def surplus (cs : List Char) : Int :=
  cs.count '{' - cs.count '}'

/-! ## Counting by a rule on runs of backslashes -/

/-- What a brace adds to the number of open ones. -/
def weight (c : Char) : Int :=
  if c = '{' then 1 else if c = '}' then -1 else 0

/-- Opening less closing braces, those being passed over before which stands a run of backslashes
whose length `hides` them; `run` backslashes stand right before the text. -/
def net (hides : Nat → Bool) : Nat → List Char → Int
  | _, [] => 0
  | run, c :: rest =>
    if c = '\\' then net hides (run + 1) rest
    else (if hides run then 0 else weight c) + net hides 0 rest

/-- Backslashes are taken in pairs. -/
def oddHides (run : Nat) : Bool :=
  run % 2 = 1

/-- The last backslash alone counts. -/
def anyHides (run : Nat) : Bool :=
  run ≠ 0

variable {run depth column : Nat} {c : Char} {cs rest : List Char}

theorem surplus_cons (c : Char) (cs : List Char) : surplus (c :: cs) = weight c + surplus cs := by
  by_cases ho : c = '{'
  · subst ho
    simp [surplus, weight]
    omega
  · by_cases hc : c = '}'
    · subst hc
      simp [surplus, weight]
      omega
    · simp [surplus, weight, ho, hc]

theorem weight_eq_zero (h : isBrace c = false) : weight c = 0 := by
  simp only [isBrace, Bool.or_eq_false_iff, beq_eq_false_iff_ne] at h
  rw [weight, if_neg h.1, if_neg h.2]

theorem net_backslash (hides : Nat → Bool) (run : Nat) (rest : List Char) :
    net hides run ('\\' :: rest) = net hides (run + 1) rest := by
  rw [net, if_pos rfl]

theorem net_cons (hides : Nat → Bool) (run : Nat) (h : c ≠ '\\') (rest : List Char) :
    net hides run (c :: rest) = (if hides run then 0 else weight c) + net hides 0 rest := by
  rw [net, if_neg h]

/-- The two rules differ by the contested braces. -/
theorem net_oddHides (run : Nat) (cs : List Char) :
    net oddHides run cs = net anyHides run cs + surplus (contested run cs) := by
  induction cs generalizing run with
  | nil => rfl
  | cons c rest ih =>
      by_cases hc : c = '\\'
      · subst hc
        rw [net_backslash, net_backslash, contested, if_pos rfl, ih]
      · rw [net_cons _ _ hc, net_cons _ _ hc, contested, if_neg hc, ih]
        -- A brace is contested if one rule counts it and the other one does not.
        by_cases hb : isBrace c = true
        · rcases Nat.eq_zero_or_pos run with rfl | hpos
          · simp [oddHides, anyHides]
            omega
          · by_cases hodd : run % 2 = 1
            · have hany : anyHides run = true := by simp [anyHides]; omega
              simp [oddHides, hany, hodd]
            · have heven : run % 2 = 0 := by omega
              have hany : anyHides run = true := by simp [anyHides]; omega
              have hne : run ≠ 0 := by omega
              simp [oddHides, hany, heven, hb, hne, surplus_cons]
              omega
        · have hb : isBrace c = false := by simpa using hb
          simp [hb, weight_eq_zero hb]

/-! ## The balance -/

/-- The balance takes backslashes in pairs. -/
theorem balance_eq_net (h : run % 2 = 0) (cs : List Char) : balance cs = net oddHides run cs := by
  have hcounts : ∀ run, run % 2 = 0 → oddHides run = false := by
    intro run hr
    simp [oddHides, hr]
  fun_induction balance cs generalizing run with
  | case1 => rfl
  | case2 => rfl
  | case3 c rest ih =>
      rw [net_backslash]
      by_cases hc : c = '\\'
      · subst hc
        rw [net_backslash, ih (by omega : (run + 1 + 1) % 2 = 0)]
      · have hhides : oddHides (run + 1) = true := by simp [oddHides]; omega
        rw [net_cons _ _ hc, hhides, ih (by omega : 0 % 2 = 0)]
        simp
  | case4 rest ih =>
      rw [net_cons _ _ (by decide), hcounts run h, ih (by omega : 0 % 2 = 0)]
      simp [weight]
      omega
  | case5 rest ih =>
      rw [net_cons _ _ (by decide), hcounts run h, ih (by omega : 0 % 2 = 0)]
      simp [weight]
      omega
  | case6 c rest hlast hpair hopen hclose ih =>
      have hc : c ≠ '\\' := ne_backslash hlast hpair
      have hplain : weight c = 0 := by
        rw [weight, if_neg fun he => hopen he, if_neg fun he => hclose he]
      rw [net_cons _ _ hc, hcounts run h, hplain, ih (by omega : 0 % 2 = 0)]
      simp

/-! ## Reading -/

/-- How many braces a reading leaves open; none if it was cut short. -/
def leftOpen : Option BraceError → Option Nat
  | none => some 0
  | some (.unclosed depth) => some depth
  | some (.prematureClose _) => none

/-- A character that is no structural brace, nor a backslash that hides a brace. -/
def StandsAlone (c : Char) (rest : List Char) : Prop :=
  isBrace c = false ∧ (c = '\\' → ∀ b ∈ rest.head?, isBrace b = false)

theorem StandsAlone.not_hiding (h : StandsAlone c rest) {b : Char} (hb : isBrace b = true)
    (more : List Char) (hc : c = '\\') : rest ≠ b :: more := by
  rintro rfl
  rw [h.2 hc b rfl] at hb
  cases hb

/-- A character on which no other move of the reading is possible, at any depth. -/
theorem standsAlone_of_no_move (hopened : ∀ more, c = '\\' → rest ≠ '{' :: more)
    (hclosed : ∀ more, c = '\\' → rest ≠ '}' :: more) (hopen : c ≠ '{')
    (hzero : depth = 0 → c ≠ '}') (hsucc : ∀ less, depth = less + 1 → c ≠ '}') :
    StandsAlone c rest := by
  have hclose : c ≠ '}' := by
    cases depth with
    | zero => exact hzero rfl
    | succ less => exact hsucc less rfl
  refine ⟨by simp [isBrace, hopen, hclose], ?_⟩
  intro hc b hb
  obtain ⟨more, rfl⟩ := List.head?_eq_some_iff.mp hb
  have hbopen : b ≠ '{' := fun he => hopened more hc (he ▸ rfl)
  have hbclose : b ≠ '}' := fun he => hclosed more hc (he ▸ rfl)
  simp [isBrace, hbopen, hbclose]

/-- A backslash and the brace that it hides are read in one move. -/
theorem readMarks_pair (hb : isBrace c = true) :
    readMarks depth column ('\\' :: c :: rest) =
      (readMarks depth (column + 2) rest).map
        (.glyph ⟨'\\', depth⟩ :: .glyph ⟨c, depth⟩ :: ·) id := by
  simp only [isBrace, Bool.or_eq_true, beq_iff_eq] at hb
  rcases hb with rfl | rfl <;> rw [readMarks] <;> rfl

/-- Any other character that is no brace is read alone. -/
theorem readMarks_plain (h : StandsAlone c rest) :
    readMarks depth column (c :: rest) = (readMarks depth (column + 1) rest).map
      ((if Text.isBlank c then .gap else .glyph ⟨c, depth⟩) :: ·) id := by
  have hc := h.1
  simp only [isBrace, Bool.or_eq_false_iff, beq_eq_false_iff_ne] at hc
  rw [readMarks]
  · rfl
  · exact h.not_hiding rfl
  · exact h.not_hiding rfl
  · exact hc.1
  · exact fun _ => hc.2
  · exact fun _ _ => hc.2

theorem readMarks_hidden (hb : isBrace c = true) :
    (readMarks depth column ('\\' :: c :: rest)).2 = (readMarks depth (column + 2) rest).2 := by
  rw [readMarks_pair hb]
  rfl

theorem readMarks_alone (h : StandsAlone c rest) :
    (readMarks depth column (c :: rest)).2 = (readMarks depth (column + 1) rest).2 := by
  rw [readMarks_plain h]
  rfl

/-- Of a run of backslashes, which is not empty, the length does not matter to the reading. -/
theorem net_anyHides_succ (run : Nat) (cs : List Char) :
    net anyHides (run + 1) cs = net anyHides 1 cs := by
  induction cs generalizing run with
  | nil => rfl
  | cons c rest ih =>
      by_cases hc : c = '\\'
      · subst hc
        rw [net_backslash, net_backslash, ih, ih 1]
      · rw [net_cons _ _ hc, net_cons _ _ hc]
        rfl

theorem net_anyHides_alone (h : StandsAlone c rest) (run : Nat) :
    net anyHides run (c :: rest) = net anyHides 0 rest := by
  by_cases hc : c = '\\'
  · subst hc
    rw [net_backslash, net_anyHides_succ]
    cases rest with
    | nil => rfl
    | cons b more =>
        -- What follows the backslash is no brace, so nothing is hidden.
        have hb : isBrace b = false := h.2 rfl b rfl
        by_cases hb' : b = '\\'
        · subst hb'
          rw [net_backslash, net_backslash, net_anyHides_succ]
        · rw [net_cons _ _ hb', net_cons _ _ hb', weight_eq_zero hb]
          simp
  · rw [net_cons _ _ hc, weight_eq_zero h.1]
    simp

theorem net_anyHides_open (rest : List Char) :
    net anyHides 0 ('{' :: rest) = 1 + net anyHides 0 rest :=
  net_cons anyHides 0 (by decide) rest

theorem net_anyHides_close (rest : List Char) :
    net anyHides 0 ('}' :: rest) = -1 + net anyHides 0 rest :=
  net_cons anyHides 0 (by decide) rest

/-- A reading that is not cut short counts by the last backslash. -/
theorem leftOpen_readMarks {left : Nat}
    (h : leftOpen (readMarks depth column cs).2 = some left) :
    depth + net anyHides 0 cs = left := by
  induction depth, column, cs using readMarks.induct with
  | case1 depth column =>
      rw [readMarks] at h
      show (depth : Int) + 0 = left
      split at h
      · obtain rfl := Option.some.inj h
        omega
      · obtain rfl := Option.some.inj h
        omega
  | case2 depth column rest _ _ _ ih =>
      rw [readMarks_hidden rfl] at h
      rw [← ih h, net_backslash, net_cons _ _ (by decide)]
      simp [anyHides]
  | case3 depth column rest _ _ _ ih =>
      rw [readMarks_hidden rfl] at h
      rw [← ih h, net_backslash, net_cons _ _ (by decide)]
      simp [anyHides]
  | case4 depth column rest ih =>
      rw [readMarks] at h
      rw [← ih h, net_anyHides_open]
      omega
  | case5 column rest =>
      rw [readMarks] at h
      cases h
  | case6 depth column rest ih =>
      rw [readMarks] at h
      rw [← ih h, net_anyHides_close]
      omega
  | case7 depth column c rest hopened hclosed hopen hzero hsucc _ _ _ ih =>
      have halone : StandsAlone c rest := standsAlone_of_no_move hopened hclosed hopen hzero hsucc
      rw [readMarks_alone halone] at h
      rw [← ih h, net_anyHides_alone halone]

/-! ## One brace group -/

theorem contested_backslash (run : Nat) (rest : List Char) :
    contested run ('\\' :: rest) = contested (run + 1) rest := by
  rw [contested, if_pos rfl]

theorem contested_cons (hc : c ≠ '\\') (h : contested run (c :: rest) = []) :
    contested 0 rest = [] := by
  rw [contested, if_neg hc] at h
  split at h
  · cases h
  · exact h

/-- Behind an even number of backslashes, two or more, stands no brace that is not contested. -/
theorem head_of_contested (hr : run ≠ 0) (heven : run % 2 = 0) (h : contested run cs = []) :
    ∀ b ∈ cs.head?, isBrace b = false := by
  intro b hb
  obtain ⟨rest, rfl⟩ := List.head?_eq_some_iff.mp hb
  cases hbrace : isBrace b with
  | false => rfl
  | true =>
      have hne : b ≠ '\\' := by
        rintro rfl
        exact absurd hbrace (by decide)
      rw [contested, if_neg hne, if_pos ⟨hbrace, hr, heven⟩] at h
      cases h

theorem head?_dropLast {b : Char} (h : b ∈ cs.dropLast.head?) : b ∈ cs.head? := by
  match cs, h with
  | _ :: _ :: _, h => exact h

/-- A search that goes on behind `passed` characters, and ends at the last one, ends there in the
rest. -/
theorem ends_in_rest {found : Option Nat} {passed : Nat} (hp : 0 < passed)
    (h : found.map (· + passed) = some (rest.length + passed - 1)) :
    rest ≠ [] ∧ found = some (rest.length - 1) := by
  obtain ⟨i, hi, hlen⟩ := Option.map_eq_some_iff.mp h
  have hne : rest ≠ [] := by
    rintro rfl
    rw [List.length_nil] at hlen
    omega
  refine ⟨hne, hi.trans (congrArg some ?_)⟩
  have hpos : 0 < rest.length := List.length_pos_iff.mpr hne
  omega

/-- If the search for the closing brace ends at the last character, what stands before that leaves
nothing open but the group itself, and is not cut short. -/
theorem readMarks_of_closingFrom (hd : 0 < depth)
    (hk : closingFrom depth cs = some (cs.length - 1)) (heven : run % 2 = 0)
    (hnone : contested run cs = []) : (readMarks (depth - 1) column cs.dropLast).2 = none := by
  induction depth, cs using closingFrom.induct generalizing run column with
  | case1 depth => rw [closingFrom] at hk; cases hk
  | case2 depth => rw [closingFrom] at hk; cases hk
  | case3 depth c rest ih =>
      rw [closingFrom] at hk
      obtain ⟨hne, hrest⟩ := ends_in_rest (by omega) hk
      rw [contested_backslash] at hnone
      rw [List.dropLast_cons_of_ne_nil (by simp), List.dropLast_cons_of_ne_nil hne]
      by_cases hb : isBrace c = true
      · have hc : c ≠ '\\' := by
          rintro rfl
          exact absurd hb (by decide)
        rw [readMarks_hidden hb]
        exact ih hd hrest rfl (contested_cons hc hnone)
      · have hb : isBrace c = false := by simpa using hb
        by_cases hc : c = '\\'
        · subst hc
          rw [contested_backslash] at hnone
          -- The second backslash hides nothing: a brace behind it would be contested.
          have hnext := head_of_contested (by omega) (by omega) hnone
          have halone : StandsAlone '\\' rest.dropLast :=
            ⟨hb, fun _ b hmem => hnext b (head?_dropLast hmem)⟩
          have hpair : StandsAlone '\\' ('\\' :: rest.dropLast) :=
            ⟨hb, fun _ b hmem => Option.some.inj hmem ▸ hb⟩
          rw [readMarks_alone hpair, readMarks_alone halone]
          exact ih hd hrest (by omega) hnone
        · have halone : StandsAlone c rest.dropLast := ⟨hb, fun he => absurd he hc⟩
          have hpair : StandsAlone '\\' (c :: rest.dropLast) :=
            ⟨by decide, fun _ b hmem => Option.some.inj hmem ▸ hb⟩
          rw [readMarks_alone hpair, readMarks_alone halone]
          exact ih hd hrest rfl (contested_cons hc hnone)
  | case4 depth rest ih =>
      rw [closingFrom] at hk
      obtain ⟨hne, hrest⟩ := ends_in_rest (by omega) hk
      have hopen : depth + 1 - 1 = depth - 1 + 1 := by omega
      rw [List.dropLast_cons_of_ne_nil hne, readMarks, ← hopen]
      exact ih (by omega) hrest rfl (contested_cons (by decide) hnone)
  | case5 rest => omega
  | case6 rest =>
      -- This brace closes the group, so it is the last character.
      rw [closingFrom] at hk
      have hlen : 0 = rest.length := Option.some.inj hk
      obtain rfl := List.length_eq_zero_iff.mp hlen.symm
      rfl
  | case7 depth rest ih =>
      rw [closingFrom] at hk
      obtain ⟨hne, hrest⟩ := ends_in_rest (by omega) hk
      rw [List.dropLast_cons_of_ne_nil hne]
      show (readMarks (depth + 1) column ('}' :: rest.dropLast)).2 = none
      rw [readMarks]
      exact ih (by omega) hrest rfl (contested_cons (by decide) hnone)
  | case8 depth c rest hlast hpair hopen hzero hone hsucc ih =>
      have hc : c ≠ '\\' := ne_backslash hlast hpair
      have hclose : c ≠ '}' := by
        match depth, hd with
        | 1, _ => exact hone rfl
        | depth + 2, _ => exact hsucc depth rfl
      have hbrace : c ≠ '{' := fun he => hopen he
      have hstep : closingFrom depth (c :: rest) = (closingFrom depth rest).map (· + 1) := by
        rw [closingFrom] <;> assumption
      rw [hstep] at hk
      obtain ⟨hne, hrest⟩ := ends_in_rest (by omega) hk
      have halone : StandsAlone c rest.dropLast :=
        ⟨by simp [isBrace, hbrace, hclose], fun he => absurd he hc⟩
      rw [List.dropLast_cons_of_ne_nil hne, readMarks_alone halone]
      exact ih hd hrest rfl (contested_cons hc hnone)

/-! ## Blanks around a value -/

theorem contested_dropWhile (h : contested 0 cs = []) :
    contested 0 (cs.dropWhile Text.isBlank) = [] := by
  induction cs with
  | nil => exact h
  | cons c rest ih =>
      by_cases hb : Text.isBlank c = true
      · have hc : c ≠ '\\' := by
          rintro rfl
          exact absurd hb (by decide)
        rw [List.dropWhile_cons_of_pos hb]
        exact ih (contested_cons hc h)
      · rw [List.dropWhile_cons_of_neg hb]
        exact h

theorem contested_of_prefix {front : List Char} (hp : front <+: cs) (h : contested run cs = []) :
    contested run front = [] := by
  obtain ⟨back, rfl⟩ := hp
  induction front generalizing run with
  | nil => rfl
  | cons c rest ih =>
      rw [List.cons_append] at h
      by_cases hc : c = '\\'
      · subst hc
        rw [contested_backslash] at h ⊢
        exact ih h
      · rw [contested, if_neg hc] at h ⊢
        split at h
        · cases h
        · next hcounted =>
            rw [if_neg hcounted]
            exact ih h

theorem contested_trim (h : contested 0 cs = []) : contested 0 (Text.trim cs) = [] :=
  contested_of_prefix (Text.trimEnd_prefix _) (contested_dropWhile h)

/-! ## The three counters -/

/-- The reading of a trimmed value that is one brace group is not cut short, and leaves nothing open,
if no brace of it is contested. -/
theorem error_of_group (hd : (splitDelimiter cs).1 = .braces) (hnone : contested 0 cs = []) :
    (readMarks 0 1 (splitDelimiter cs).2).2 = none := by
  unfold splitDelimiter at hd ⊢
  split at hd
  · cases hd
  · next hquotes =>
      split at hd
      · next hbraces =>
          rw [if_neg hquotes, if_pos hbraces]
          rw [Bool.and_eq_true, beq_iff_eq, beq_iff_eq] at hbraces
          obtain ⟨hopen, hclosing⟩ := hbraces
          obtain ⟨rest, rfl⟩ := List.head?_eq_some_iff.mp hopen
          rw [closing?, closingFrom] at hclosing
          obtain ⟨-, hrest⟩ : rest ≠ [] ∧ closingFrom 1 rest = some (rest.length - 1) :=
            ends_in_rest (by omega) hclosing
          exact readMarks_of_closingFrom (by omega) hrest rfl (contested_cons (by decide) hnone)
      · cases hd

/-- The balance of a text is the number of braces that reading it leaves open, and the surplus of the
contested ones.  A value that is one brace group is read without error if none is contested. -/
theorem balance_of_scan (cs : List Char) :
    ((scanContent cs).error = none → balance cs = surplus (contested 0 cs)) ∧
      (∀ depth, (scanContent cs).error = some (.unclosed depth) →
        balance cs = depth + surplus (contested 0 cs)) ∧
      ((scanField cs).delimiter = .braces → contested 0 cs = [] →
        (scanField cs).error = none) := by
  have hbalance : ∀ left, leftOpen (scanContent cs).error = some left →
      balance cs = left + surplus (contested 0 cs) := by
    intro left h
    have hleft : (0 : Nat) + net anyHides 0 cs = left := leftOpen_readMarks h
    rw [balance_eq_net (by decide : 0 % 2 = 0), net_oddHides]
    omega
  refine ⟨?_, ?_, ?_⟩
  · intro h
    have h0 := hbalance 0 (by rw [h]; rfl)
    omega
  · intro depth h
    exact hbalance depth (by rw [h]; rfl)
  · intro hd hnone
    exact error_of_group hd (contested_trim hnone)

/-- A group around another one and two hidden braces. -/
def hiddenBraces : List Char := "\x7b\\\x7bx\\\x7d \x7by\x7d\x7d".toList

/-- A brace behind three backslashes, which is hidden, and one that stays open. -/
def threeBackslashes : List Char := "\\\\\\\x7ba \x7bb".toList

theorem balance_of_scan_uncontested :
    ((scanContent hiddenBraces).error = none ∧
        balance hiddenBraces = surplus (contested 0 hiddenBraces)) ∧
      ((scanContent threeBackslashes).error = some (.unclosed 1) ∧
        balance threeBackslashes = (1 : Nat) + surplus (contested 0 threeBackslashes)) ∧
      (scanField hiddenBraces).delimiter = .braces ∧ contested 0 hiddenBraces = [] ∧
      (scanField hiddenBraces).error = none := by
  have hread : (scanContent hiddenBraces).error = none := by decide
  have hopen : (scanContent threeBackslashes).error = some (.unclosed 1) := by decide
  have hgroup : (scanField hiddenBraces).delimiter = .braces := by decide
  have hnone : contested 0 hiddenBraces = [] := by decide
  exact ⟨⟨hread, (balance_of_scan hiddenBraces).1 hread⟩,
    ⟨hopen, (balance_of_scan threeBackslashes).2.1 1 hopen⟩,
    hgroup, hnone, (balance_of_scan hiddenBraces).2.2 hgroup hnone⟩

/-- The counters do not agree on a brace behind two backslashes: the balance counts it, the reading
does not.  A group whose braces match is then reported. -/
theorem balance_of_scan_contested :
    ((scanContent "\\\\\x7b".toList).error = none ∧ balance "\\\\\x7b".toList = 1) ∧
      (scanField "\x7b\\\\\x7ba\x7d\x7d".toList).delimiter = .braces ∧
      (scanField "\x7b\\\\\x7ba\x7d\x7d".toList).error = some (.prematureClose 5) := by
  decide

end BibAudit.Value
