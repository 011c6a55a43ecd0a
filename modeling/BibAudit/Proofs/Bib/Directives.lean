/-
# BibAudit.Proofs.Bib.Directives — what the directives before a header add up to.

Directives reach an entry one by one, and a later reason replaces an earlier one.  The result is said
here without the order of events: each check that is named, once, with the reason given last.
-/
import BibAudit.Bib.Reader
import BibAudit.Proofs.Text.Case
import Mathlib.Data.List.Induction

namespace BibAudit.Bib

/-- Each check that is named, once, with the reason given last. -/
def lastReasons (asked : List Directive) : List (String × Option String) :=
  (asked.map Prod.fst).eraseDups.map fun check => (check, (asked.reverse.lookup check).join)

theorem nodup_eraseDups {α : Type} [DecidableEq α] : ∀ l : List α, l.eraseDups.Nodup
  | [] => by simp
  | a :: rest => by
      rw [List.eraseDups_cons, List.nodup_cons]
      refine ⟨?_, nodup_eraseDups _⟩
      intro hmem
      have ha := (List.mem_filter.mp (List.mem_eraseDups.mp hmem)).2
      simp at ha
termination_by l => l.length
decreasing_by
  have := List.length_filter_le (fun b => !b == a) rest
  simp only [List.length_cons]
  omega

theorem eraseDups_concat {α : Type} [DecidableEq α] (l : List α) (a : α) :
    (l ++ [a]).eraseDups = if a ∈ l then l.eraseDups else l.eraseDups ++ [a] := by
  rw [List.eraseDups_append]
  split
  · next h => simp [List.removeAll, h]
  · next h => simp [List.removeAll, h, List.eraseDups_cons]

/-! ## One more reason -/

variable {name : String} {reason : Option String} {given : String → Option String}

/-- A reason for a check that has one replaces it, and any other check keeps its own. -/
theorem putReason_of_mem {names : List String} (hn : names.Nodup) (h : name ∈ names) :
    Entry.putReason name reason (names.map fun n => (n, given n)) =
      names.map fun n => (n, if n = name then reason else given n) := by
  induction names with
  | nil => simp at h
  | cons other rest ih =>
      obtain ⟨hother, hrest⟩ := List.nodup_cons.mp hn
      rw [List.map_cons, Entry.putReason, List.map_cons]
      by_cases he : other = name
      · subst he
        have hkeep : ∀ n ∈ rest, (n, given n) = (n, if n = other then reason else given n) := by
          intro n hmem
          have hne : n ≠ other := fun heq => hother (heq ▸ hmem)
          rw [if_neg hne]
        simp [List.map_congr_left hkeep]
      · have hmem : name ∈ rest := (List.mem_cons.mp h).resolve_left fun heq => he heq.symm
        simp [he, ih hrest hmem]

theorem putReason_of_not_mem {names : List String} (h : name ∉ names) :
    Entry.putReason name reason (names.map fun n => (n, given n)) =
      names.map (fun n => (n, given n)) ++ [(name, reason)] := by
  induction names with
  | nil => rfl
  | cons other rest ih =>
      have he : other ≠ name := fun heq => h (heq ▸ List.mem_cons_self)
      have hrest : name ∉ rest := fun hmem => h (List.mem_cons_of_mem other hmem)
      rw [List.map_cons, Entry.putReason, if_neg (by simpa using he), ih hrest, List.cons_append]

/-! ## All of them -/

theorem lookup_concat (asked : List Directive) (check : String) :
    ((asked ++ [(name, reason)]).reverse.lookup check).join =
      if check = name then reason else (asked.reverse.lookup check).join := by
  rw [List.reverse_append, List.reverse_singleton, List.singleton_append, List.lookup_cons]
  by_cases h : check = name
  · simp [h]
  · have hbeq : (check == name) = false := by simpa using h
    simp [h, hbeq]

theorem lastReasons_concat (asked : List Directive) (name : String) (reason : Option String) :
    lastReasons (asked ++ [(name, reason)]) =
      Entry.putReason name reason (lastReasons asked) := by
  have hnodup := nodup_eraseDups (asked.map Prod.fst)
  rw [lastReasons, lastReasons, List.map_append, List.map_singleton, eraseDups_concat]
  simp only [lookup_concat]
  split
  · next h => rw [putReason_of_mem hnodup (List.mem_eraseDups.mpr h)]
  · next h =>
      have hnot : name ∉ (asked.map Prod.fst).eraseDups := fun hm => h (List.mem_eraseDups.mp hm)
      have hkeep : ∀ n ∈ (asked.map Prod.fst).eraseDups,
          (n, if n = name then reason else (asked.reverse.lookup n).join) =
            (n, (asked.reverse.lookup n).join) := by
        intro n hmem
        have hne : n ≠ name := fun heq => hnot (heq ▸ hmem)
        rw [if_neg hne]
      rw [putReason_of_not_mem hnot, List.map_append, List.map_congr_left hkeep]
      simp

/-- An entry that met some directives in turn keeps the last reasons. -/
theorem foldl_suppress (asked : List Directive) (e : Entry) (he : e.suppressions = [])
    (hl : ∀ d ∈ asked, Text.lowerAscii d.1 = d.1) :
    asked.foldl (fun e d => e.suppress d.1 d.2) e =
      { e with suppressions := lastReasons asked } := by
  induction asked using List.reverseRecOn with
  | nil => cases e; simp_all [lastReasons]
  | append_singleton asked d ih =>
      obtain ⟨name, reason⟩ := d
      have hname : Text.lowerAscii name = name := hl (name, reason) (by simp)
      rw [List.foldl_append, ih fun d hm => hl d (List.mem_append_left _ hm), lastReasons_concat]
      simp [Entry.suppress, hname]

end BibAudit.Bib
