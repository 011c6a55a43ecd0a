/-
# BibAudit.Proofs.Value.Bytes — parts of a token by bytes.

A part of a token takes a range of the bytes of its text, from the bytes of what stands before it on.
The characters that start in that range are those of the part, so its depth by bytes is the depth of
its characters.
-/
import BibAudit.Value.Token
import Mathlib.Algebra.GroupWithZero.Nat

namespace BibAudit.Value.Token

variable {start stop offset : Nat} {gs front part back : List Glyph}

/-- The bytes that characters take in a text. -/
def byteLength (gs : List Glyph) : Nat :=
  (gs.map fun g => g.char.utf8Size).sum

theorem byteLength_cons (g : Glyph) (gs : List Glyph) :
    byteLength (g :: gs) = g.char.utf8Size + byteLength gs := by
  unfold byteLength
  rw [List.map_cons, List.sum_cons]

theorem byteLength_append (front back : List Glyph) :
    byteLength (front ++ back) = byteLength front + byteLength back := by
  unfold byteLength
  rw [List.map_append, List.sum_append]

theorem startingIn_cons (start stop offset : Nat) (g : Glyph) (gs : List Glyph) :
    startingIn start stop offset (g :: gs) =
      if start ≤ offset ∧ offset < stop then
        g :: startingIn start stop (offset + g.char.utf8Size) gs
      else startingIn start stop (offset + g.char.utf8Size) gs := by
  rw [startingIn]
  simp only [Bool.and_eq_true, decide_eq_true_eq]

/-- No character of what ends where the range starts is in it. -/
theorem startingIn_before (h : offset + byteLength front ≤ start) (rest : List Glyph) :
    startingIn start stop offset (front ++ rest) =
      startingIn start stop (offset + byteLength front) rest := by
  induction front generalizing offset with
  | nil => rfl
  | cons g front ih =>
      have hpos : 0 < g.char.utf8Size := Char.utf8Size_pos g.char
      rw [byteLength_cons] at h ⊢
      rw [List.cons_append, startingIn_cons, if_neg (by omega), ih (by omega), Nat.add_assoc]

/-- No character behind the range is in it. -/
theorem startingIn_behind (h : stop ≤ offset) (gs : List Glyph) :
    startingIn start stop offset gs = [] := by
  induction gs generalizing offset with
  | nil => rfl
  | cons g gs ih =>
      rw [startingIn_cons, if_neg (by omega)]
      exact ih (by omega)

/-- Every character of what starts with the range and ends with it is in it. -/
theorem startingIn_inside (hstart : start ≤ offset) (hstop : stop = offset + byteLength part)
    (back : List Glyph) : startingIn start stop offset (part ++ back) = part := by
  induction part generalizing offset with
  | nil => exact startingIn_behind (Nat.le_of_eq hstop) back
  | cons g part ih =>
      have hpos : 0 < g.char.utf8Size := Char.utf8Size_pos g.char
      rw [byteLength_cons] at hstop
      rw [List.cons_append, startingIn_cons, if_pos (by omega), ih (by omega) (by omega)]

/-- By the bytes that a part takes, its depth is that of its characters. -/
theorem byteSpanDepth_part (front part back : List Glyph) :
    byteSpanDepth (front ++ part ++ back) (byteLength front) (byteLength front + byteLength part) =
      leastDepth part := by
  unfold byteSpanDepth
  rw [List.append_assoc, startingIn_before (by omega), startingIn_inside (by omega) (by omega)]

end BibAudit.Value.Token
