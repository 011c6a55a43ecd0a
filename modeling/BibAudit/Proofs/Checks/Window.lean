/-
# BibAudit.Proofs.Checks.Window — complaints about words.

A window check never fails, whatever it remembers.  It complains about words of its window under its
own name, and about nothing else: no key, no further lines.
-/
import BibAudit.Lint

namespace BibAudit

variable {check : Check} {c : Complaint} {d : Document} {m : Checks.Memory} {words : List Word}

/-- The complaint is one of a check about one of these words. -/
def Document.Spots (d : Document) (check : Check) (words : List Word) (c : Complaint) : Prop :=
  ∃ w ∈ words, ∃ message, c = Checks.complainOfWord check d w message

namespace Checks

theorem spots_of_mem_numberWordHyphen (h : c ∈ numberWordHyphen d words) :
    d.Spots .numberWordHyphen words c := by
  unfold numberWordHyphen at h
  split at h
  · next number unit =>
      simp only at h
      split at h
      · obtain rfl := List.mem_singleton.mp h
        exact ⟨unit, by simp, _, rfl⟩
      · exact absurd h List.not_mem_nil
  · exact absurd h List.not_mem_nil

theorem spots_of_mem_separatedWords (h : c ∈ separatedWords d words) :
    d.Spots .separatedWords words c := by
  unfold separatedWords at h
  split at h
  · next first second =>
      split at h
      · obtain rfl := List.mem_singleton.mp h
        exact ⟨first, by simp, _, rfl⟩
      · exact absurd h List.not_mem_nil
  · exact absurd h List.not_mem_nil

/-- Whatever is remembered, stems are reported at the first word of the window. -/
theorem of_mem_sightAll {first : Word} {size : Nat} {stems : List (String × Nat)}
    (h : c ∈ (sightAll d first size m stems).1) :
    ∃ message, c = complainOfWord .repeatedWords d first message := by
  induction stems generalizing m with
  | nil => exact absurd h List.not_mem_nil
  | cons counted rest ih =>
      obtain ⟨stem, count⟩ := counted
      rw [sightAll] at h
      simp only at h
      split at h
      · rcases List.mem_cons.mp h with rfl | h
        · exact ⟨_, rfl⟩
        · exact ih h
      · exact ih h

theorem spots_of_mem_repeatedWords (h : c ∈ (repeatedWords m d words).1) :
    d.Spots .repeatedWords words c := by
  unfold repeatedWords at h
  split at h
  · exact absurd h List.not_mem_nil
  · next first rest =>
      obtain ⟨message, rfl⟩ := of_mem_sightAll h
      exact ⟨first, List.mem_cons_self, message, rfl⟩

end Checks

/-! ## The table -/

/-- No window check fails, and each finds words of its window. -/
theorem window_findings
    {run : Checks.Memory → Document → List Word → Findings × Checks.Memory}
    (h : check.body = .window run) (m : Checks.Memory) (d : Document) (words : List Word) :
    ∃ cs, (run m d words).1 = .ok cs ∧ ∀ c ∈ cs, d.Spots check words c := by
  cases check with
  | numberWordHyphen =>
      cases h
      exact ⟨_, rfl, fun _ hc => Checks.spots_of_mem_numberWordHyphen hc⟩
  | separatedWords =>
      cases h
      exact ⟨_, rfl, fun _ hc => Checks.spots_of_mem_separatedWords hc⟩
  | repeatedWords =>
      cases h
      exact ⟨_, rfl, fun _ hc => Checks.spots_of_mem_repeatedWords hc⟩
  | _ => cases h

namespace Lint

/-! ## All windows of a document -/

/-- A window holds words of the document. -/
theorem mem_of_mem_windows {α : Type} {size : Nat} {items window : List α}
    (h : window ∈ windows size items) : ∀ a ∈ window, a ∈ items := by
  induction items with
  | nil => exact absurd h List.not_mem_nil
  | cons first rest ih =>
      intro a ha
      rw [windows] at h
      split at h
      · rcases List.mem_cons.mp h with rfl | h
        · exact List.mem_of_mem_take ha
        · exact List.mem_cons_of_mem first (ih h a ha)
      · exact absurd h List.not_mem_nil

theorem spots_of_mem_onWindows
    {run : Checks.Memory → Document → List Word → Findings × Checks.Memory}
    (hb : check.body = .window run) {ws : List (List Word)}
    (hw : ∀ window ∈ ws, ∀ w ∈ window, w ∈ d.words) (h : c ∈ onWindows check d run m ws) :
    d.Spots check d.words c := by
  induction ws generalizing m with
  | nil => exact absurd h List.not_mem_nil
  | cons window rest ih =>
      obtain ⟨cs, hrun, hcs⟩ := window_findings hb m d window
      rw [onWindows] at h
      simp only [hrun] at h
      rcases List.mem_append.mp h with h | h
      · obtain ⟨w, hmem, message, rfl⟩ := hcs c h
        exact ⟨w, hw window List.mem_cons_self w hmem, message, rfl⟩
      · exact ih (fun v hv => hw v (List.mem_cons_of_mem window hv)) h

/-- Going over a document, a window check complains about words of that document. -/
theorem spots_of_mem_document
    {run : Checks.Memory → Document → List Word → Findings × Checks.Memory}
    (hb : check.body = .window run) {size : Nat}
    (h : c ∈ onWindows check d run m (windows size d.words)) : d.Spots check d.words c :=
  spots_of_mem_onWindows hb (fun _ hwindow => mem_of_mem_windows hwindow) h

end Lint

end BibAudit
