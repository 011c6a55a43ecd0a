/-
# BibAudit.Proofs.Value.Spans — stretches of a token by characters and by bytes.

A stretch of a token is given by the indexes of its characters, or by a range of the bytes of the
token's text.  Characters take one to four bytes, so the two differ behind the first character outside
ASCII.  A range of bytes stands for the characters that start in it.  From the byte at which one
character starts to the byte at which another does, these are the characters between the two, and
both ways give the least depth among them.
-/
import BibAudit.Proofs.Value.Bytes
import BibAudit.Proofs.Value.Unprotected
import BibAudit.Value.Scan
import Mathlib.Data.String.Basic

namespace BibAudit.Value.Token

variable {t : Token} {g : Glyph} {gs : List Glyph} {start stop offset i j : Nat}

/-! ## Bytes of a text -/

/-- The byte at which a character of a text starts: the characters before it take as many bytes. -/
def byteOffset (text : String) (i : Nat) : Nat :=
  (String.ofList (text.toList.take i)).utf8ByteSize

theorem utf8ByteSize_chars (gs : List Glyph) :
    (String.ofList (chars gs)).utf8ByteSize = byteLength gs := by
  rw [String.utf8ByteSize_ofList]
  induction gs with
  | nil => rfl
  | cons g gs ih =>
      show String.utf8Len (g.char :: chars gs) = _
      rw [String.utf8Len_cons, ih, byteLength_cons, Nat.add_comm]

theorem byteOffset_text (t : Token) (i : Nat) : byteOffset t.text i = byteLength (t.take i) := by
  rw [byteOffset, text, String.toList_ofList, chars, ← List.map_take, ← chars, utf8ByteSize_chars]

/-- The character at index `k` starts in the range of bytes. -/
def StartsIn (t : Token) (start stop k : Nat) : Prop :=
  start ≤ byteOffset t.text k ∧ byteOffset t.text k < stop

instance (t : Token) (start stop k : Nat) : Decidable (StartsIn t start stop k) :=
  inferInstanceAs (Decidable (_ ∧ _))

/-- In a range of bytes are the characters that start there; the induction moves `offset` over the
characters that were passed. -/
theorem mem_startingIn : g ∈ startingIn start stop offset gs ↔ ∃ k, gs[k]? = some g ∧
    start ≤ offset + byteLength (gs.take k) ∧ offset + byteLength (gs.take k) < stop := by
  induction gs generalizing offset with
  | nil => simp [startingIn]
  | cons first rest ih =>
      have hrest : g ∈ startingIn start stop (offset + first.char.utf8Size) rest ↔
          ∃ k, (first :: rest)[k + 1]? = some g ∧
            start ≤ offset + byteLength ((first :: rest).take (k + 1)) ∧
            offset + byteLength ((first :: rest).take (k + 1)) < stop := by
        rw [ih]
        simp only [List.getElem?_cons_succ, List.take_succ_cons, byteLength_cons, Nat.add_assoc]
      rw [startingIn_cons, ← Nat.or_exists_add_one, ← hrest]
      show _ ↔ (some first = some g ∧ start ≤ offset ∧ offset < stop) ∨ _
      rw [Option.some.injEq, eq_comm (a := first)]
      split
      · next hin => rw [List.mem_cons, and_iff_left hin]
      · next hout => rw [or_iff_right fun h => hout h.2]

theorem startingIn_eq_nil (h : ∀ k < t.length, ¬ StartsIn t start stop k) :
    startingIn start stop 0 t = [] := by
  rw [List.eq_nil_iff_forall_not_mem]
  intro g hg
  obtain ⟨k, hk, hstarts⟩ := mem_startingIn.mp hg
  obtain ⟨hlt, -⟩ := List.getElem?_eq_some_iff.mp hk
  refine h k hlt ?_
  rwa [StartsIn, byteOffset_text, ← Nat.zero_add (byteLength _)]

/-! ## Stretches of characters -/

theorem mem_stretch : g ∈ (t.take j).drop i ↔ ∃ k, i ≤ k ∧ k < j ∧ t[k]? = some g := by
  rw [List.mem_iff_getElem?]
  constructor
  · rintro ⟨n, hn⟩
    rw [List.getElem?_drop, List.getElem?_take] at hn
    split at hn
    · next hlt => exact ⟨i + n, Nat.le_add_right i n, hlt, hn⟩
    · cases hn
  · rintro ⟨k, hi, hj, hk⟩
    refine ⟨k - i, ?_⟩
    rw [List.getElem?_drop, Nat.add_sub_cancel' hi, List.getElem?_take_of_lt hj, hk]

theorem isLeast_spanDepth (hij : i < j) (hj : j ≤ t.length) :
    IsLeast {d | ∃ k, i ≤ k ∧ k < j ∧ t[k]?.map Glyph.depth = some d} (t.spanDepth i j) := by
  have hstretch : (t.take j).drop i ≠ [] := by
    rw [Ne, List.drop_eq_nil_iff, List.length_take]
    omega
  have hdepths : {d | ∃ k, i ≤ k ∧ k < j ∧ t[k]?.map Glyph.depth = some d} =
      {d | ∃ g ∈ (t.take j).drop i, g.depth = d} := by
    ext d
    simp only [Set.mem_ofPred_eq, mem_stretch, Option.map_eq_some_iff]
    constructor
    · rintro ⟨k, hi, hlt, g, hk, hd⟩
      exact ⟨g, ⟨k, hi, hlt, hk⟩, hd⟩
    · rintro ⟨g, ⟨k, hi, hlt, hk⟩, hd⟩
      exact ⟨k, hi, hlt, g, hk, hd⟩
  rw [hdepths]
  exact isLeast_leastDepth hstretch

theorem spanDepth_of_le (h : j ≤ i) (t : Token) : t.spanDepth i j = 0 := by
  have hempty : (t.take j).drop i = [] := by
    rw [List.drop_eq_nil_iff, List.length_take]
    omega
  rw [spanDepth, hempty]
  rfl

/-- From the byte of one character to that of another, the depth by bytes is that by characters. -/
theorem byteSpanDepth_offsets (hij : i ≤ j) (t : Token) :
    t.byteSpanDepth (byteOffset t.text i) (byteOffset t.text j) = t.spanDepth i j := by
  -- The token is what stands before the stretch, the stretch, and what stands behind it.
  have hfront : (t.take j).take i = t.take i := by rw [List.take_take, Nat.min_eq_left hij]
  have hsplit : t.take i ++ (t.take j).drop i = t.take j := by
    rw [← hfront, List.take_append_drop]
  have hbytes : byteLength (t.take j) =
      byteLength (t.take i) + byteLength ((t.take j).drop i) := by
    rw [← byteLength_append, hsplit]
  have hpart := byteSpanDepth_part (t.take i) ((t.take j).drop i) (t.drop j)
  rwa [hsplit, List.take_append_drop, ← hbytes, ← byteOffset_text, ← byteOffset_text] at hpart

/-- Take a character of a token, of whatever value it is one, and a later character or the end.  From
the byte at which the one starts to the byte at which the other does, the depth by bytes is the depth
by characters, and this is the least depth of the characters from the one to the last before the
other.  A range of bytes in which no character starts has depth zero, wherever it lies, and so has a
stretch of characters that is empty or runs backwards. -/
theorem byteSpanDepth_exact (t : Token) :
    (∀ i j, i < j → j ≤ t.length →
      t.byteSpanDepth (byteOffset t.text i) (byteOffset t.text j) = t.spanDepth i j ∧
        IsLeast {d | ∃ k, i ≤ k ∧ k < j ∧ t[k]?.map Glyph.depth = some d} (t.spanDepth i j)) ∧
      (∀ start stop, (∀ k < t.length, ¬ StartsIn t start stop k) →
        t.byteSpanDepth start stop = 0) ∧
      ∀ i j, j ≤ i → t.spanDepth i j = 0 := by
  refine ⟨?_, ?_, ?_⟩
  · intro i j hij hj
    exact ⟨byteSpanDepth_offsets (Nat.le_of_lt hij) t, isLeast_spanDepth hij hj⟩
  · intro start stop hnone
    rw [byteSpanDepth, startingIn_eq_nil hnone]
    rfl
  · intro i j hji
    exact spanDepth_of_le hji t

/-- Characters of two, one, three and four bytes, the middle two inside braces. -/
def mixedToken : Token :=
  [⟨'é', 0⟩, ⟨'A', 1⟩, ⟨'€', 1⟩, ⟨'😀', 0⟩]

/-- The braces hold the bytes from the second to the fifth; no character starts at the last two. -/
theorem byteSpanDepth_exact_mixed :
    (scanContent "é{A€}😀".toList).tokens = [mixedToken] ∧
      byteOffset mixedToken.text 1 = 2 ∧ byteOffset mixedToken.text 3 = 6 ∧
      mixedToken.byteSpanDepth 2 6 = mixedToken.spanDepth 1 3 ∧
      IsLeast {d | ∃ k, 1 ≤ k ∧ k < 3 ∧ mixedToken[k]?.map Glyph.depth = some d} 1 ∧
      (∀ k < mixedToken.length, ¬ StartsIn mixedToken 4 6 k) ∧
      mixedToken.byteSpanDepth 4 6 = 0 ∧ mixedToken.spanDepth 3 1 = 0 := by
  have hsecond : byteOffset mixedToken.text 1 = 2 := by decide
  have hfourth : byteOffset mixedToken.text 3 = 6 := by decide
  have hnone : ∀ k < mixedToken.length, ¬ StartsIn mixedToken 4 6 k := by decide
  obtain ⟨hbetween, hempty, hbackwards⟩ := byteSpanDepth_exact mixedToken
  obtain ⟨hbytes, hleast⟩ := hbetween 1 3 (by decide) (by decide)
  rw [hsecond, hfourth] at hbytes
  exact ⟨by decide, hsecond, hfourth, hbytes, hleast, hnone, hempty 4 6 hnone,
    hbackwards 3 1 (by decide)⟩

end BibAudit.Value.Token
