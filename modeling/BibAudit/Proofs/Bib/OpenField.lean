/-
# BibAudit.Proofs.Bib.OpenField — the open field and its braces.

After a line the open field starts on that line, or it was open before and the line is passed over or
joined on to its value.  The braces of a text that is joined on are counted in that text alone.  This
is the count of the whole value: the text stands behind a space, and the space is all that a backslash
before it can hide.  So the depth of the open field is the balance of its value, wherever lines end,
and whether a comment line is part of the value is judged on the value as it is joined.
-/
import BibAudit.Proofs.Bib.Standing
import BibAudit.Proofs.Text.Words

namespace BibAudit.Bib

variable {path : SourcePath} {c : Cursor} {o : OpenEntry} {f g : OpenField}
  {before : Option OpenField} {line : Nat} {raw : List Char} {texts : List (List Char)}

/-! ## Joined texts -/

/-- A line that is joined on is not affected by a backslash before it: the space is. -/
theorem balance_join (value text : List Char) :
    Value.balance (value ++ ' ' :: text) = Value.balance value + Value.balance text := by
  fun_induction Value.balance value with
  | case1 => simp [Value.balance]
  | case2 => simp [Value.balance]
  | case3 c rest ih => simpa [Value.balance] using ih
  | case4 rest ih =>
      rw [List.cons_append, Value.balance, ih]
      omega
  | case5 rest ih =>
      rw [List.cons_append, Value.balance, ih]
      omega
  | case6 c rest hlast hpair hopen hclose ih =>
      have hc : c ≠ '\\' := Value.ne_backslash hlast hpair
      rw [List.cons_append, Value.balance, ih]
      · exact fun h => absurd h hc
      · exact fun _ _ h => absurd h hc
      · exact hopen
      · exact hclose

/-- Texts between spaces open and close together what each of them does. -/
theorem balance_joined (texts : List (List Char)) :
    Value.balance ([' '].intercalate texts) = braces texts := by
  induction texts with
  | nil => rfl
  | cons text rest ih =>
      cases rest with
      | nil =>
          rw [List.intercalate_singleton, braces_cons]
          exact (Int.add_zero _).symm
      | cons next more =>
          rw [List.intercalate_cons_cons, List.append_assoc, List.singleton_append, balance_join, ih,
            braces_cons text]

/-! ## One line -/

/-- The open field, if an entry is open and has one. -/
def Cursor.field? (c : Cursor) : Option OpenField :=
  match c.state with
  | .outside _ => none
  | .inEntry o => o.field

/-- The field that is open after a line, by the field that was open before it: it starts on the line,
or was open before and the line is passed over, or joined on to its value. -/
inductive FieldAfter (line : Nat) (raw : List Char) (before : Option OpenField) : OpenField → Prop
  | starts {name value : List Char}
      (h : classify raw = .fieldStart name value ∨
        ∃ kind key rest, classify raw = .header kind key rest ∧
          headerField? rest = some (name, value)) :
      FieldAfter line raw before (.start line name value)
  | passed {f : OpenField} (hf : f ∈ before)
      (h : classify raw = .blank ∨ (∃ check reason, classify raw = .suppression check reason) ∨
        classify raw = .comment ∧ f.depth ≤ 0) :
      FieldAfter line raw before f
  | joined {f : OpenField} (hf : f ∈ before)
      (h : classify raw = .text ∨ classify raw = .comment ∧ 0 < f.depth) :
      FieldAfter line raw before (f.extend (Text.trim raw))

theorem field_stepOutside {pending : List Directive}
    (h : g ∈ (stepOutside path line raw pending (classify raw)).1.field?) :
    FieldAfter line raw before g := by
  cases hkind : classify raw with
  | header kind key rest =>
      rw [hkind, stepOutside, headerRest_eq] at h
      cases hcloses : closesItself rest with
      | true =>
          rw [hcloses] at h
          cases h
      | false =>
          rw [hcloses] at h
          obtain ⟨⟨name, value⟩, hfield, rfl⟩ := Option.map_eq_some_iff.mp h
          exact .starts (.inr ⟨kind, key, rest, hkind, hfield⟩)
  | _ =>
      rw [hkind] at h
      cases h

theorem field_stepInside {pending : List Directive} (hr : (classify raw).isBoundary = false)
    (h : g ∈ (stepInside o line raw pending (classify raw)).1.field?) :
    FieldAfter line raw o.field g := by
  obtain ⟨e, field⟩ := o
  cases hkind : classify raw with
  | header | special | malformedHeader =>
      rw [hkind] at hr
      cases hr
  | close =>
      rw [hkind] at h
      cases h
  | blank =>
      rw [hkind] at h
      exact .passed h (.inl hkind)
  | suppression check reason =>
      rw [hkind] at h
      exact .passed h (.inr (.inl ⟨check, reason, hkind⟩))
  | fieldStart name value =>
      rw [hkind] at h
      obtain rfl := Option.some.inj h
      exact .starts (.inl hkind)
  | text =>
      rw [hkind] at h
      obtain ⟨f, hf, rfl⟩ := Option.map_eq_some_iff.mp h
      exact .joined hf (.inl hkind)
  | comment =>
      rw [hkind] at h
      cases field with
      | none => cases h
      | some f =>
          simp only [stepInside, Option.any_some, OpenField.insideBraces, decide_eq_true_eq] at h
          split at h
          · next hopen =>
              obtain rfl := Option.some.inj h
              exact .joined rfl (.inr ⟨hkind, hopen⟩)
          · next hclosed =>
              obtain rfl := Option.some.inj h
              exact .passed rfl (.inr (.inr ⟨hkind, Int.not_lt.mp hclosed⟩))

/-- What one line can do to the open field. -/
theorem field_step (h : g ∈ (step path c line raw).1.field?) : FieldAfter line raw c.field? g := by
  obtain ⟨state, pending⟩ := c
  cases state with
  | outside skipping =>
      simp only [step] at h
      split at h
      · cases h
      · exact field_stepOutside h
  | inEntry o =>
      simp only [step] at h
      split at h
      · exact field_stepOutside h
      · next hstays => exact field_stepInside (by simpa using hstays) h

/-- A comment line inside an entry is part of the value exactly if the field is inside braces. -/
theorem field_step_comment (hf : f ∈ c.field?) (hkind : classify raw = .comment) :
    (step path c line raw).1.field? = some (if 0 < f.depth then f.extend (Text.trim raw) else f) := by
  obtain ⟨state, pending⟩ := c
  cases state with
  | outside skipping => cases hf
  | inEntry o =>
      have hfield : o.field = some f := hf
      simp only [step, hkind, LineKind.isBoundary, Bool.false_eq_true, if_false, stepInside, hfield,
        Option.any_some, OpenField.insideBraces, decide_eq_true_eq, Cursor.field?]
      split
      · rw [OpenEntry.extend, hfield]
        rfl
      · exact hfield

/-! ## Lines one after another -/

/-- The cursors that lines lead to from the start, whatever their numbers. -/
inductive Reachable (path : SourcePath) : Cursor → Prop
  | start : Reachable path .start
  | step {c : Cursor} (line : Nat) (raw : List Char) (h : Reachable path c) :
      Reachable path (step path c line raw).1

/-- Reading a stretch of lines stays among these cursors. -/
theorem Reachable.stepAll (h : Reachable path c) (last : Nat) (ls : List (List Char)) :
    Reachable path (stepAll path c last ls).1 := by
  induction ls generalizing c last with
  | nil => exact h
  | cons raw rest ih => exact ih (h.step (last + 1) raw) (last + 1)

/-- The value of the field is these texts between spaces, and its depth is counted text by text. -/
structure OpenField.Gathers (f : OpenField) (texts : List (List Char)) : Prop where
  filled : texts ≠ []
  value_eq : f.value = [' '].intercalate texts
  depth_eq : f.depth = braces texts

theorem OpenField.gathers_start (line : Nat) (name value : List Char) :
    (OpenField.start line name value).Gathers [Text.trim value] :=
  ⟨List.cons_ne_nil _ _, List.intercalate_singleton.symm, (Int.add_zero _).symm⟩

theorem OpenField.Gathers.extend (h : f.Gathers texts) (text : List Char) :
    (f.extend text).Gathers (texts ++ [text]) := by
  refine ⟨by simp, ?_, ?_⟩
  · rw [Text.join_append h.filled (List.cons_ne_nil _ _), List.intercalate_singleton, ← h.value_eq]
    rfl
  · rw [braces_concat, ← h.depth_eq]
    rfl

theorem OpenField.Gathers.depth_eq_balance (h : f.Gathers texts) :
    f.depth = Value.balance f.value := by
  rw [h.value_eq, balance_joined, h.depth_eq]

theorem FieldAfter.gathers (h : FieldAfter line raw before g)
    (hbefore : ∀ f ∈ before, ∃ texts, f.Gathers texts) : ∃ texts, g.Gathers texts := by
  cases h with
  | starts => exact ⟨_, OpenField.gathers_start line _ _⟩
  | passed hf => exact hbefore _ hf
  | joined hf =>
      obtain ⟨texts, htexts⟩ := hbefore _ hf
      exact ⟨_, htexts.extend _⟩

/-- Whatever lines were read, the open field gathers texts. -/
theorem Reachable.gathers (h : Reachable path c) : ∀ f ∈ c.field?, ∃ texts, f.Gathers texts := by
  induction h with
  | start =>
      intro f hf
      cases hf
  | step line raw _ ih => exact fun g hg => (field_step hg).gathers ih

/-- After any lines, the depth of the open field is the balance of its value, and so is the sum of the
balances of the texts that lines brought to it.  A text that is joined on adds its own balance, even if
the value ends in a backslash and the text begins with a brace.  A comment line is joined on exactly if
the value as joined so far leaves a brace open. -/
theorem openField_depth (h : Reachable path c) (hf : f ∈ c.field?) :
    f.depth = Value.balance f.value ∧
      (∃ texts, f.value = [' '].intercalate texts ∧ f.depth = (texts.map Value.balance).sum) ∧
      (∀ text, Value.balance (f.extend text).value = Value.balance f.value + Value.balance text ∧
        (f.extend text).depth = Value.balance (f.value ++ ' ' :: text)) ∧
      (f.insideBraces = true ↔ 0 < Value.balance f.value) ∧
      (∀ line raw, classify raw = .comment → (step path c line raw).1.field? =
        some (if 0 < Value.balance f.value then f.extend (Text.trim raw) else f)) := by
  obtain ⟨texts, htexts⟩ := h.gathers f hf
  have hdepth := htexts.depth_eq_balance
  refine ⟨hdepth, ⟨texts, htexts.value_eq, htexts.depth_eq⟩, ?_, ?_, ?_⟩
  · intro text
    refine ⟨balance_join f.value text, ?_⟩
    rw [balance_join, ← hdepth]
    rfl
  · rw [OpenField.insideBraces, decide_eq_true_eq, hdepth]
  · intro line raw hkind
    rw [field_step_comment hf hkind, hdepth]

/-- The first line of the value ends in a backslash, and the next one begins with a brace. -/
def brokenLines : List (List Char) :=
  ["@misc\x7bk,".toList, "  note = \x7ba\\".toList, "  \x7bb".toList]

theorem openField_depth_broken :
    Reachable ⟨"refs.bib"⟩ (stepAll ⟨"refs.bib"⟩ .start 0 brokenLines).1 ∧
      ⟨"note".toList, "\x7ba\\ \x7bb".toList, 2, 2⟩ ∈
        (stepAll ⟨"refs.bib"⟩ .start 0 brokenLines).1.field? ∧
      (2 : Int) = Value.balance "\x7ba\\ \x7bb".toList ∧
      classify "% why".toList = .comment ∧
      (step ⟨"refs.bib"⟩ (stepAll ⟨"refs.bib"⟩ .start 0 brokenLines).1 4 "% why".toList).1.field? =
        some ⟨"note".toList, "\x7ba\\ \x7bb % why".toList, 2, 2⟩ := by
  have hreached : Reachable ⟨"refs.bib"⟩ (stepAll ⟨"refs.bib"⟩ .start 0 brokenLines).1 :=
    Reachable.start.stepAll 0 brokenLines
  have hfield : ⟨"note".toList, "\x7ba\\ \x7bb".toList, 2, 2⟩ ∈
      (stepAll ⟨"refs.bib"⟩ .start 0 brokenLines).1.field? := by decide +kernel
  have hkind : classify "% why".toList = .comment := by decide +kernel
  obtain ⟨hdepth, -, -, -, hcomment⟩ := openField_depth hreached hfield
  refine ⟨hreached, hfield, hdepth, hkind, ?_⟩
  rw [hcomment 4 _ hkind, ← hdepth]
  rfl

end BibAudit.Bib
