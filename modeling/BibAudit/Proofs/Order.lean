/-
# BibAudit.Proofs.Order — the order of complaints decides their sequence.

The order of complaints is total and lets no two different complaints tie.  So the sorted list is
determined by which complaints there are, and leaving some out may be done before or after.
-/
import BibAudit.Complaint

namespace BibAudit

open Std

/-! ## The orders are lawful -/

instance : TransOrd SourcePath :=
  inferInstanceAs (TransCmp (compareOn SourcePath.text))

instance : LawfulEqOrd SourcePath where
  eq_of_compare {a b} h := by
    have htie : compare a.text b.text = .eq := h
    have htext : a.text = b.text := LawfulEqCmp.eq_of_compare htie
    cases a
    cases b
    exact congrArg SourcePath.mk htext

instance : TransOrd Location :=
  inferInstanceAs (TransCmp
    (compareLex (compareOn Location.path) (compareOn Location.line)))

instance : LawfulEqOrd Location where
  eq_of_compare {a b} h := by
    obtain ⟨hpath, hline⟩ := compareLex_eq_eq.mp h
    have hp : a.path = b.path := LawfulEqCmp.eq_of_compare hpath
    have hl : a.line = b.line := LawfulEqCmp.eq_of_compare hline
    cases a
    cases b
    simp_all

namespace Complaint

instance : TransCmp order :=
  inferInstanceAs (TransCmp
    (compareLex (compareOn location) (compareLex (compareOn check)
      (compareLex (compareOn message) (compareLex (compareOn key) (compareOn related))))))

/-- Only equal complaints tie. -/
instance : LawfulEqCmp order where
  eq_of_compare {a b} h := by
    obtain ⟨hlocation, h⟩ := compareLex_eq_eq.mp h
    obtain ⟨hcheck, h⟩ := compareLex_eq_eq.mp h
    obtain ⟨hmessage, h⟩ := compareLex_eq_eq.mp h
    obtain ⟨hkey, hrelated⟩ := compareLex_eq_eq.mp h
    have h₁ : a.location = b.location := LawfulEqCmp.eq_of_compare hlocation
    have h₂ : a.check = b.check := LawfulEqCmp.eq_of_compare hcheck
    have h₃ : a.message = b.message := LawfulEqCmp.eq_of_compare hmessage
    have h₄ : a.key = b.key := LawfulEqCmp.eq_of_compare hkey
    have h₅ : a.related = b.related := LawfulEqCmp.eq_of_compare hrelated
    cases a
    cases b
    simp_all

/-! ## Sorting -/

variable {cs ds : List Complaint}

theorem sort_perm (cs : List Complaint) : (sort cs).Perm cs :=
  List.mergeSort_perm _ _

@[simp] theorem mem_sort {c : Complaint} : c ∈ sort cs ↔ c ∈ cs :=
  (sort_perm cs).mem_iff

@[simp] theorem length_sort (cs : List Complaint) : (sort cs).length = cs.length :=
  (sort_perm cs).length_eq

theorem sort_sorted (cs : List Complaint) :
    (sort cs).Pairwise fun a b => (order a b).isLE = true := by
  refine List.pairwise_mergeSort ?_ ?_ cs
  · intro a b c hab hbc
    exact TransCmp.isLE_trans hab hbc
  · intro a b
    rw [@OrientedCmp.eq_swap _ order _ b a]
    cases order a b <;> rfl

/-- A sorted list is determined by its members. -/
theorem eq_of_sorted (hc : cs.Pairwise fun a b => (order a b).isLE = true)
    (hd : ds.Pairwise fun a b => (order a b).isLE = true) (h : cs.Perm ds) : cs = ds := by
  refine List.Perm.eq_of_pairwise ?_ hc hd h
  intro a b _ _ hab hba
  exact LawfulEqCmp.eq_of_compare (OrientedCmp.isLE_antisymm hab hba)

theorem sort_eq_of_perm (h : cs.Perm ds) : sort cs = sort ds :=
  eq_of_sorted (sort_sorted cs) (sort_sorted ds)
    ((sort_perm cs).trans (h.trans (sort_perm ds).symm))

/-- Complaints may be left out before sorting as well as after. -/
theorem filter_sort (p : Complaint → Bool) (cs : List Complaint) :
    (sort cs).filter p = sort (cs.filter p) := by
  -- Both sides are sorted and have the same members as often.
  have hperm : ((sort cs).filter p).Perm (sort (cs.filter p)) :=
    ((sort_perm cs).filter p).trans (sort_perm (cs.filter p)).symm
  exact eq_of_sorted ((sort_sorted cs).filter p) (sort_sorted (cs.filter p)) hperm

end Complaint

end BibAudit
