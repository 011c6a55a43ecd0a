/-
# BibAudit.Text.Utf8 — reading bytes as text.

A byte sequence is read character by character.  Where it cannot go on, the longest piece that some
character could have started with counts as one bad unit: a tolerant reader puts U+FFFD in its
place, a strict reader refuses the whole text.
-/
namespace BibAudit.Text

/-- What the first byte of a character promises: how many bytes follow, the range of the next one,
and the bits that the first byte contributes. -/
structure Lead where
  tails : Nat
  low : Nat
  high : Nat
  bits : Nat

/-- The promise of a first byte; none if no character of two or more bytes starts with it. -/
def lead? (b : Nat) : Option Lead :=
  if 0xC2 ≤ b && b ≤ 0xDF then some ⟨1, 0x80, 0xBF, b - 0xC0⟩
  else if b == 0xE0 then some ⟨2, 0xA0, 0xBF, 0⟩
  else if b == 0xED then some ⟨2, 0x80, 0x9F, 0xD⟩
  else if 0xE1 ≤ b && b ≤ 0xEF then some ⟨2, 0x80, 0xBF, b - 0xE0⟩
  else if b == 0xF0 then some ⟨3, 0x90, 0xBF, 0⟩
  else if 0xF1 ≤ b && b ≤ 0xF3 then some ⟨3, 0x80, 0xBF, b - 0xF0⟩
  else if b == 0xF4 then some ⟨3, 0x80, 0x8F, 4⟩
  else none

/-- Read `tails` more bytes onto `bits`; the count is of the bytes that fit. -/
def readTails (low high bits : Nat) : Nat → List UInt8 → Option Char × Nat
  | 0, _ => (some (Char.ofNat bits), 0)
  | _ + 1, [] => (none, 0)
  | n + 1, b :: rest =>
    if low ≤ b.toNat && b.toNat ≤ high then
      let (c, used) := readTails 0x80 0xBF (bits * 64 + (b.toNat - 0x80)) n rest
      (c, used + 1)
    else (none, 0)

/-- The character that starts with byte `b`, none for a bad unit, and how many bytes after `b` it
takes. -/
def readChar (b : UInt8) (rest : List UInt8) : Option Char × Nat :=
  if b.toNat < 0x80 then (some (Char.ofNat b.toNat), 0)
  else match lead? b.toNat with
    | some l => readTails l.low l.high l.bits l.tails rest
    | none => (none, 0)

/-- Characters and bad units of a byte sequence, after passing over `skip` bytes. -/
def decodeFrom : Nat → List UInt8 → List (Option Char)
  | _, [] => []
  | skip + 1, _ :: rest => decodeFrom skip rest
  | 0, b :: rest =>
    let (c, used) := readChar b rest
    c :: decodeFrom used rest

/-- Tolerant reading: every bad unit becomes U+FFFD. -/
def decodeLossy (bytes : List UInt8) : List Char :=
  (decodeFrom 0 bytes).map fun c => c.getD (Char.ofNat 0xFFFD)

/-- Strict reading: none if there is a bad unit. -/
def decodeStrict? (bytes : List UInt8) : Option (List Char) :=
  (decodeFrom 0 bytes).mapM id

end BibAudit.Text
