/-
# BibAudit.Proofs.Text.Trim — texts that trimming leaves alone.

A text is tight if neither of its ends is a blank.  Trimming makes every text tight, leaves a tight
text as it is, and finds a tight text again behind an indentation.  Most characters that the reader
looks for are ASCII and no blanks; such facts about one character are settled by going through the
128 of them.
-/
import BibAudit.Text.Basic

namespace BibAudit.Text

/-! ## ASCII characters -/

/-- A property of characters holds of an ASCII character if it holds of all 128 of them. -/
theorem forall_ascii {p : Char → Prop} (h : ∀ n : Fin 128, p (Char.ofNat n)) {c : Char}
    (hc : c.toNat < 128) : p c := by
  have hp := h ⟨c.toNat, hc⟩
  rwa [Char.ofNat_toNat] at hp

theorem toNat_lt_of_isAlphanum {c : Char} (h : c.isAlphanum = true) : c.toNat < 128 := by
  have hclass : ((decide (c.val ≥ 'A'.val ∧ c.val ≤ 'Z'.val) ||
      (decide (c.val ≥ 'a'.val) && decide (c.val ≤ 'z'.val))) ||
      (decide (c.val ≥ '0'.val) && decide (c.val ≤ '9'.val))) = true := h
  simp only [Bool.or_eq_true, Bool.and_eq_true, decide_eq_true_eq, ge_iff_le,
    UInt32.le_iff_toNat_le] at hclass
  change ((65 ≤ c.toNat ∧ c.toNat ≤ 90) ∨ (97 ≤ c.toNat ∧ c.toNat ≤ 122)) ∨
    (48 ≤ c.toNat ∧ c.toNat ≤ 57) at hclass
  omega

/-! ## Runs

What is read up to the end of a run, in lists of any kind. -/

section Runs

variable {α : Type} {p : α → Bool} {run rest : List α}

theorem takeWhile_run (h : ∀ a ∈ run, p a = true) (hrest : ∀ a ∈ rest.head?, p a = false) :
    (run ++ rest).takeWhile p = run := by
  rw [List.takeWhile_append_of_pos h]
  cases rest with
  | nil => exact List.append_nil run
  | cons a rest =>
      have ha : p a = false := hrest a rfl
      rw [List.takeWhile_cons_of_neg (by simp [ha]), List.append_nil]

theorem dropWhile_eq_self (h : ∀ a ∈ rest.head?, p a = false) : rest.dropWhile p = rest := by
  cases rest with
  | nil => rfl
  | cons a rest =>
      have ha : p a = false := h a rfl
      rw [List.dropWhile_cons_of_neg (by simp [ha])]

theorem dropWhile_run (h : ∀ a ∈ run, p a = true) (hrest : ∀ a ∈ rest.head?, p a = false) :
    (run ++ rest).dropWhile p = rest := by
  rw [List.dropWhile_append_of_pos h, dropWhile_eq_self hrest]

end Runs

/-! ## Tight texts -/

/-- No blank stands at either end. -/
structure Tight (cs : List Char) : Prop where
  head : ∀ c ∈ cs.head?, isBlank c = false
  last : ∀ c ∈ cs.getLast?, isBlank c = false

instance (cs : List Char) : Decidable (Tight cs) :=
  decidable_of_iff ((cs.head?.all fun c => !isBlank c) = true ∧
      (cs.getLast?.all fun c => !isBlank c) = true)
    ⟨fun ⟨h, l⟩ => ⟨by simpa [Option.all_eq_true] using h, by simpa [Option.all_eq_true] using l⟩,
      fun h => ⟨by simpa [Option.all_eq_true] using h.head,
        by simpa [Option.all_eq_true] using h.last⟩⟩

theorem dropEndWhile_eq_self {p : Char → Bool} {cs : List Char}
    (h : ∀ c ∈ cs.getLast?, p c = false) : dropEndWhile p cs = cs := by
  have hrev : cs.reverse.dropWhile p = cs.reverse :=
    dropWhile_eq_self (by rwa [List.head?_reverse])
  rw [dropEndWhile, hrev, List.reverse_reverse]

theorem trimStart_eq_self {cs : List Char} (h : ∀ c ∈ cs.head?, isBlank c = false) :
    trimStart cs = cs :=
  dropWhile_eq_self h

theorem trimEnd_eq_self {cs : List Char} (h : ∀ c ∈ cs.getLast?, isBlank c = false) :
    trimEnd cs = cs :=
  dropEndWhile_eq_self h

theorem Tight.trimEnd_eq {cs : List Char} (h : Tight cs) : trimEnd cs = cs :=
  trimEnd_eq_self h.last

theorem Tight.trim_eq {cs : List Char} (h : Tight cs) : trim cs = cs := by
  rw [trim, trimStart_eq_self h.head, h.trimEnd_eq]

/-- Blanks in front of a text make no difference. -/
theorem trim_blanks_append {front : List Char} (h : ∀ c ∈ front, isBlank c = true)
    (cs : List Char) : trim (front ++ cs) = trim cs := by
  rw [trim, trimStart, List.dropWhile_append_of_pos h]
  rfl

theorem Tight.trim_indented {cs indent : List Char} (h : Tight cs)
    (hi : ∀ c ∈ indent, isBlank c = true) : trim (indent ++ cs) = cs :=
  (trim_blanks_append hi cs).trans h.trim_eq

theorem tight_nil : Tight [] := ⟨by simp, by simp⟩

/-- One end is enough for each side: what stands between does not matter. -/
theorem tight_between {a z : Char} (ha : isBlank a = false) (hz : isBlank z = false)
    (middle : List Char) : Tight (a :: (middle ++ [z])) := by
  constructor
  · intro c hc
    obtain rfl : a = c := by simpa using hc
    exact ha
  · intro c hc
    rw [← List.cons_append, List.getLast?_concat] at hc
    obtain rfl : z = c := by simpa using hc
    exact hz

theorem Tight.append {cs ds : List Char} (hc : Tight cs) (hd : Tight ds) (hcs : cs ≠ [])
    (hds : ds ≠ []) (middle : List Char) : Tight (cs ++ middle ++ ds) := by
  obtain ⟨a, rest, rfl⟩ := List.exists_cons_of_ne_nil hcs
  obtain ⟨front, z, rfl⟩ := List.eq_nil_or_concat ds |>.resolve_left hds
  have ha : isBlank a = false := hc.head a rfl
  have hz : isBlank z = false := hd.last z (by simp)
  simpa using tight_between ha hz (rest ++ middle ++ front)

/-! ## Around a character that stays -/

theorem dropWhile_append_cons {p : Char → Bool} {c : Char} (hc : p c = false)
    (before after : List Char) :
    (before ++ c :: after).dropWhile p = before.dropWhile p ++ c :: after := by
  rw [List.dropWhile_append, List.dropWhile_cons_of_neg (by simp [hc])]
  split
  · next hnone => rw [List.isEmpty_iff.mp hnone, List.nil_append]
  · rfl

/-- Dropping does not reach beyond a character that stays. -/
theorem dropEndWhile_append_cons {p : Char → Bool} {c : Char} (hc : p c = false)
    (before after : List Char) :
    dropEndWhile p (before ++ c :: after) = before ++ c :: dropEndWhile p after := by
  unfold dropEndWhile
  rw [List.reverse_append, List.reverse_cons, List.append_assoc, List.singleton_append,
    dropWhile_append_cons hc, List.reverse_append, List.reverse_cons, List.reverse_reverse,
    List.append_assoc, List.singleton_append]

theorem dropEndWhile_append {p : Char → Bool} {back : List Char} (h : ∀ c ∈ back, p c = true)
    (front : List Char) : dropEndWhile p (front ++ back) = dropEndWhile p front := by
  have hall : ∀ c ∈ back.reverse, p c = true := fun c hc => h c (List.mem_reverse.mp hc)
  rw [dropEndWhile, List.reverse_append, List.dropWhile_append_of_pos hall, ← dropEndWhile]

theorem dropEndWhile_eq_nil {p : Char → Bool} {cs : List Char} (h : ∀ c ∈ cs, p c = true) :
    dropEndWhile p cs = [] :=
  dropEndWhile_append h []

/-- What is dropped stood behind what is left. -/
theorem exists_dropEndWhile (p : Char → Bool) (cs : List Char) :
    ∃ back, cs = dropEndWhile p cs ++ back ∧ ∀ c ∈ back, p c = true := by
  refine ⟨(cs.reverse.takeWhile p).reverse, ?_, ?_⟩
  · rw [dropEndWhile, ← List.reverse_append, List.takeWhile_append_dropWhile, List.reverse_reverse]
  · exact fun c hc => List.all_eq_true.mp List.all_takeWhile c (List.mem_reverse.mp hc)

theorem head_dropWhile {p : Char → Bool} {cs : List Char} :
    ∀ c ∈ (cs.dropWhile p).head?, p c = false := by
  intro c hc
  have h := List.head?_dropWhile_not p cs
  rw [Option.mem_def] at hc
  simpa [hc] using h

theorem last_dropEndWhile {p : Char → Bool} {cs : List Char} :
    ∀ c ∈ (dropEndWhile p cs).getLast?, p c = false := by
  intro c hc
  rw [dropEndWhile, List.getLast?_reverse] at hc
  exact head_dropWhile c hc

theorem trimStart_append_cons {c : Char} (hc : isBlank c = false) (before after : List Char) :
    trimStart (before ++ c :: after) = trimStart before ++ c :: after :=
  dropWhile_append_cons hc before after

theorem trimEnd_append_cons {c : Char} (hc : isBlank c = false) (before after : List Char) :
    trimEnd (before ++ c :: after) = before ++ c :: trimEnd after :=
  dropEndWhile_append_cons hc before after

theorem trim_append_cons {c : Char} (hc : isBlank c = false) (before after : List Char) :
    trim (before ++ c :: after) = trimStart before ++ c :: trimEnd after := by
  rw [trim, trimStart_append_cons hc, trimEnd_append_cons hc]

/-! ## Trimming makes tight -/

theorem head_trimStart {cs : List Char} : ∀ c ∈ (trimStart cs).head?, isBlank c = false :=
  head_dropWhile

theorem last_trimEnd {cs : List Char} : ∀ c ∈ (trimEnd cs).getLast?, isBlank c = false :=
  last_dropEndWhile

theorem trimEnd_prefix (cs : List Char) : trimEnd cs <+: cs := by
  obtain ⟨back, hback, -⟩ := exists_dropEndWhile isBlank cs
  exact ⟨back, hback.symm⟩

theorem tight_trim (cs : List Char) : Tight (trim cs) := by
  refine ⟨?_, last_trimEnd⟩
  intro c hc
  -- What is left after cutting the end begins as the text before it did.
  obtain ⟨tail, ht⟩ := trimEnd_prefix (trimStart cs)
  have hhead : c ∈ (trimStart cs).head? := by
    rw [← ht, List.head?_append]
    rw [Option.mem_def] at hc ⊢
    rw [← trim, hc]
    rfl
  exact head_trimStart c hhead

@[simp] theorem trim_trim (cs : List Char) : trim (trim cs) = trim cs :=
  (tight_trim cs).trim_eq

/-- Trimming cuts off blanks and nothing else. -/
theorem blanks_around_trim (cs : List Char) : ∃ front back, cs = front ++ (trim cs ++ back) ∧
    (∀ c ∈ front, isBlank c = true) ∧ ∀ c ∈ back, isBlank c = true := by
  obtain ⟨back, hback, hblank⟩ := exists_dropEndWhile isBlank (trimStart cs)
  refine ⟨cs.takeWhile isBlank, back, ?_, List.all_eq_true.mp List.all_takeWhile, hblank⟩
  rw [trim, trimEnd, ← hback, trimStart, List.takeWhile_append_dropWhile]

theorem trimStart_eq_nil {cs : List Char} (h : ∀ c ∈ cs, isBlank c = true) :
    trimStart cs = [] := by
  rw [← List.append_nil cs, trimStart, List.dropWhile_append_of_pos h]
  rfl

/-- Nothing is left of a text if there is nothing but blanks in it. -/
theorem trim_eq_nil {cs : List Char} : trim cs = [] ↔ ∀ c ∈ cs, isBlank c = true := by
  constructor
  · intro h
    obtain ⟨front, back, hcs, hfront, hback⟩ := blanks_around_trim cs
    rw [h, List.nil_append] at hcs
    rw [hcs]
    exact List.forall_mem_append.mpr ⟨hfront, hback⟩
  · intro h
    rw [trim, trimStart_eq_nil h]
    rfl

/-- Blanks behind a text make no difference. -/
theorem trim_append_blanks {back : List Char} (h : ∀ c ∈ back, isBlank c = true)
    (cs : List Char) : trim (cs ++ back) = trim cs := by
  rw [trim, trim, trimStart, trimStart, List.dropWhile_append]
  split
  · next hnone => rw [List.isEmpty_iff.mp hnone, ← trimStart, trimStart_eq_nil h]
  · exact dropEndWhile_append h _

theorem trim_trimEnd (cs : List Char) : trim (trimEnd cs) = trim cs := by
  obtain ⟨back, hback, hblank⟩ := exists_dropEndWhile isBlank cs
  have hends := trim_append_blanks hblank (trimEnd cs)
  rw [trimEnd, ← hback] at hends
  exact hends.symm

end BibAudit.Text
