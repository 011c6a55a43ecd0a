/-
# BibAudit.Proofs.Groups — what groups hold.

Groups are built by adding one value after another, and hold what was added and nothing else: a value
stands under a name exactly if it was added with it, and a name is there exactly if something was.
The names increase, so each stands once, with all its values in the order in which they were added.
Characters that are put into their places hold what was put in, in strictly increasing order.
-/
import BibAudit.Bibliography
import Mathlib.Data.List.Basic
import Mathlib.Data.List.Dedup
import Mathlib.Data.List.Induction

namespace BibAudit

namespace Groups

variable {α : Type} {name other : String} {value v : α} {groups : Groups α}

/-- The value stands under the name. -/
def Holds (groups : Groups α) (name : String) (value : α) : Prop :=
  ∃ values, (name, values) ∈ groups ∧ value ∈ values

theorem not_holds_nil : ¬ Holds ([] : Groups α) name value := by
  rintro ⟨values, hmem, -⟩
  exact List.not_mem_nil hmem

theorem holds_cons {values : List α} :
    Holds ((other, values) :: groups) name value ↔
      (name = other ∧ value ∈ values) ∨ Holds groups name value := by
  constructor
  · rintro ⟨ws, hmem, hv⟩
    rcases List.mem_cons.mp hmem with heq | hmem
    · obtain ⟨rfl, rfl⟩ := Prod.mk.inj heq
      exact .inl ⟨rfl, hv⟩
    · exact .inr ⟨ws, hmem, hv⟩
  · rintro (⟨rfl, hv⟩ | ⟨ws, hmem, hv⟩)
    · exact ⟨values, List.mem_cons_self, hv⟩
    · exact ⟨ws, List.mem_cons_of_mem _ hmem, hv⟩

/-- Adding a value puts it under its name and changes nothing else. -/
theorem holds_add :
    Holds (add name value groups) other v ↔ (other = name ∧ v = value) ∨ Holds groups other v := by
  induction groups with
  | nil =>
      rw [add, holds_cons]
      simp
  | cons group rest ih =>
      obtain ⟨first, values⟩ := group
      rw [add]
      cases hc : compare name first with
      | lt =>
          show Holds ((name, [value]) :: (first, values) :: rest) other v ↔ _
          rw [holds_cons, List.mem_singleton]
      | eq =>
          -- The value joins the group that is there.
          obtain rfl : name = first := Std.LawfulEqCmp.eq_of_compare hc
          show Holds ((name, values ++ [value]) :: rest) other v ↔ _
          rw [holds_cons, holds_cons, List.mem_append, List.mem_singleton]
          tauto
      | gt =>
          show Holds ((first, values) :: add name value rest) other v ↔ _
          rw [holds_cons, holds_cons, ih]
          tauto

theorem has_cons {values : List α} :
    has ((other, values) :: groups) name = (name == other || has groups name) := by
  rw [has, List.lookup_cons]
  cases name == other <;> rfl

theorem has_add :
    has (add name value groups) other = (other == name || has groups other) := by
  induction groups with
  | nil => rw [add, has_cons]
  | cons group rest ih =>
      obtain ⟨first, values⟩ := group
      rw [add]
      cases hc : compare name first with
      | lt =>
          show has ((name, [value]) :: (first, values) :: rest) other = _
          rw [has_cons]
      | eq =>
          obtain rfl : name = first := Std.LawfulEqCmp.eq_of_compare hc
          show has ((name, values ++ [value]) :: rest) other = _
          rw [has_cons, has_cons, ← Bool.or_assoc, Bool.or_self]
      | gt =>
          show has ((first, values) :: add name value rest) other = _
          rw [has_cons, has_cons, ih, Bool.or_left_comm]

theorem ofList_concat (items : List (String × α)) (item : String × α) :
    ofList (items ++ [item]) = add item.1 item.2 (ofList items) := by
  rw [ofList, List.foldl_append]
  rfl

/-- Values stand under the names that they were added with. -/
theorem holds_ofList {items : List (String × α)} :
    Holds (ofList items) name value ↔ (name, value) ∈ items := by
  induction items using List.reverseRecOn with
  | nil => exact ⟨fun h => absurd h not_holds_nil, fun h => absurd h List.not_mem_nil⟩
  | append_singleton items item ih =>
      obtain ⟨n, v⟩ := item
      rw [ofList_concat, holds_add, ih, List.mem_append, List.mem_singleton, Prod.mk.injEq]
      exact Or.comm

theorem has_ofList {items : List (String × α)} :
    has (ofList items) name = items.any fun item => name == item.1 := by
  induction items using List.reverseRecOn with
  | nil => rfl
  | append_singleton items item ih =>
      rw [ofList_concat, has_add, ih, List.any_append, Bool.or_comm]
      simp

/-- A group that is there is found by its name. -/
theorem has_of_mem {values : List α} (h : (name, values) ∈ groups) : has groups name = true := by
  induction groups with
  | nil => exact absurd h List.not_mem_nil
  | cons group rest ih =>
      obtain ⟨first, ws⟩ := group
      rw [has_cons]
      rcases List.mem_cons.mp h with heq | hmem
      · obtain ⟨rfl, rfl⟩ := Prod.mk.inj heq
        simp
      · rw [ih hmem, Bool.or_true]

/-! ### All values of a name -/

/-- The names increase. -/
def Sorted (groups : Groups α) : Prop :=
  groups.Pairwise fun a b => compare a.1 b.1 = .lt

/-- What was added under a name, in order. -/
def addedUnder (items : List (String × α)) (name : String) : List α :=
  (items.filter fun item => item.1 == name).map Prod.snd

theorem ne_of_compare_lt {a b : String} (h : compare a b = .lt) : a ≠ b := by
  rintro rfl
  rw [Std.compare_self] at h
  cases h

/-- No name comes in but the one that a value is added with. -/
theorem name_of_mem_add {group : String × List α} (h : group ∈ add name value groups) :
    group.1 = name ∨ ∃ old ∈ groups, old.1 = group.1 := by
  induction groups with
  | nil =>
      rw [add, List.mem_singleton] at h
      exact .inl (h ▸ rfl)
  | cons first rest ih =>
      obtain ⟨first, values⟩ := first
      rw [add] at h
      cases hc : compare name first with
      | lt =>
          rw [hc] at h
          rcases List.mem_cons.mp h with rfl | h
          · exact .inl rfl
          · exact .inr ⟨group, h, rfl⟩
      | eq =>
          rw [hc] at h
          rcases List.mem_cons.mp h with rfl | h
          · exact .inr ⟨(first, values), List.mem_cons_self, rfl⟩
          · exact .inr ⟨group, List.mem_cons_of_mem _ h, rfl⟩
      | gt =>
          rw [hc] at h
          rcases List.mem_cons.mp h with rfl | h
          · exact .inr ⟨(first, values), List.mem_cons_self, rfl⟩
          · exact (ih h).imp_right fun ⟨old, hold, hname⟩ =>
              ⟨old, List.mem_cons_of_mem _ hold, hname⟩

theorem sorted_add (h : Sorted groups) : Sorted (add name value groups) := by
  induction groups with
  | nil => exact List.pairwise_singleton _ _
  | cons group rest ih =>
      obtain ⟨first, values⟩ := group
      obtain ⟨hfirst, hrest⟩ := List.pairwise_cons.mp h
      rw [add]
      cases hc : compare name first with
      | lt =>
          refine List.pairwise_cons.mpr ⟨fun other hother => ?_, h⟩
          rcases List.mem_cons.mp hother with rfl | hother
          · exact hc
          · exact Std.TransCmp.lt_trans hc (hfirst other hother)
      | eq => exact List.pairwise_cons.mpr ⟨hfirst, hrest⟩
      | gt =>
          refine List.pairwise_cons.mpr ⟨fun other hother => ?_, ih hrest⟩
          rcases name_of_mem_add hother with hname | ⟨old, hold, hname⟩
          · rw [hname]
            exact Std.OrientedCmp.lt_of_gt hc
          · rw [← hname]
            exact hfirst old hold

theorem sorted_ofList (items : List (String × α)) : Sorted (ofList items) := by
  induction items using List.reverseRecOn with
  | nil => exact List.Pairwise.nil
  | append_singleton items item ih =>
      rw [ofList_concat]
      exact sorted_add ih

theorem valuesOf_cons {values : List α} : valuesOf ((other, values) :: groups) name =
    if name = other then values else valuesOf groups name := by
  rw [valuesOf, List.lookup_cons]
  by_cases h : name = other
  · simp [h]
  · have hbeq : (name == other) = false := by simpa using h
    rw [if_neg h, hbeq]
    rfl

theorem holds_of_mem_valuesOf (h : value ∈ valuesOf groups name) : Holds groups name value := by
  induction groups with
  | nil => exact absurd h List.not_mem_nil
  | cons group rest ih =>
      obtain ⟨other, values⟩ := group
      rw [valuesOf_cons] at h
      rw [holds_cons]
      split at h
      · next hname => exact .inl ⟨hname, h⟩
      · exact .inr (ih h)

theorem valuesOf_of_lt (h : ∀ group ∈ groups, compare name group.1 = .lt) :
    valuesOf groups name = [] := by
  induction groups with
  | nil => rfl
  | cons group rest ih =>
      obtain ⟨first, values⟩ := group
      have hne : name ≠ first := ne_of_compare_lt (h (first, values) List.mem_cons_self)
      rw [valuesOf_cons, if_neg hne]
      exact ih fun other hother => h other (List.mem_cons_of_mem _ hother)

/-- A value that is added comes last under its name. -/
theorem valuesOf_add (h : Sorted groups) : valuesOf (add name value groups) other =
    if other = name then valuesOf groups name ++ [value] else valuesOf groups other := by
  induction groups with
  | nil => rw [add, valuesOf_cons]; rfl
  | cons group rest ih =>
      obtain ⟨first, values⟩ := group
      obtain ⟨hfirst, hrest⟩ := List.pairwise_cons.mp h
      rw [add]
      cases hc : compare name first with
      | lt =>
          have hnone : valuesOf ((first, values) :: rest) name = [] := by
            refine valuesOf_of_lt fun later hlater => ?_
            rcases List.mem_cons.mp hlater with rfl | hlater
            · exact hc
            · exact Std.TransCmp.lt_trans hc (hfirst later hlater)
          show valuesOf ((name, [value]) :: (first, values) :: rest) other = _
          rw [valuesOf_cons, hnone, List.nil_append]
      | eq =>
          obtain rfl : name = first := Std.LawfulEqCmp.eq_of_compare hc
          show valuesOf ((name, values ++ [value]) :: rest) other = _
          rw [valuesOf_cons, valuesOf_cons, valuesOf_cons, if_pos rfl]
          split <;> rfl
      | gt =>
          have hne : name ≠ first := (ne_of_compare_lt (Std.OrientedCmp.lt_of_gt hc)).symm
          show valuesOf ((first, values) :: add name value rest) other = _
          rw [valuesOf_cons, ih hrest, valuesOf_cons, valuesOf_cons, if_neg hne]
          by_cases hother : other = first
          · rw [if_pos hother, if_pos hother, if_neg (hother ▸ hne.symm)]
          · rw [if_neg hother, if_neg hother]

theorem valuesOf_ofList (items : List (String × α)) (name : String) :
    valuesOf (ofList items) name = addedUnder items name := by
  induction items using List.reverseRecOn with
  | nil => rfl
  | append_singleton items item ih =>
      rw [ofList_concat, valuesOf_add (sorted_ofList items), addedUnder, List.filter_append,
        List.map_append, ← addedUnder, ← ih]
      by_cases h : name = item.1
      · subst h
        simp
      · have hbeq : (item.1 == name) = false := by simpa using fun he => h he.symm
        simp [h, hbeq]

theorem ne_nil_of_mem_add (h : ∀ group ∈ groups, group.2 ≠ []) :
    ∀ group ∈ add name value groups, group.2 ≠ [] := by
  induction groups with
  | nil => simp [add]
  | cons group rest ih =>
      obtain ⟨first, values⟩ := group
      obtain ⟨hfirst, hrest⟩ := List.forall_mem_cons.mp h
      rw [add]
      cases hc : compare name first with
      | lt => exact List.forall_mem_cons.mpr ⟨by simp, h⟩
      | eq => exact List.forall_mem_cons.mpr ⟨by simp, hrest⟩
      | gt => exact List.forall_mem_cons.mpr ⟨hfirst, ih hrest⟩

theorem ne_nil_of_mem_ofList (items : List (String × α)) :
    ∀ group ∈ ofList items, group.2 ≠ [] := by
  induction items using List.reverseRecOn with
  | nil => simp [ofList]
  | append_singleton items item ih =>
      rw [ofList_concat]
      exact ne_nil_of_mem_add ih

theorem Sorted.valuesOf_eq (h : Sorted groups) {values : List α} (hmem : (name, values) ∈ groups) :
    valuesOf groups name = values := by
  induction groups with
  | nil => exact absurd hmem List.not_mem_nil
  | cons group rest ih =>
      obtain ⟨first, ws⟩ := group
      obtain ⟨hfirst, hrest⟩ := List.pairwise_cons.mp h
      rw [valuesOf_cons]
      rcases List.mem_cons.mp hmem with heq | hmem
      · obtain ⟨rfl, rfl⟩ := Prod.mk.inj heq
        exact if_pos rfl
      · have hne : name ≠ first := (ne_of_compare_lt (hfirst _ hmem)).symm
        rw [if_neg hne, ih hrest hmem]

/-- A group is there exactly if something was added under its name, and holds all of that. -/
theorem mem_ofList {items : List (String × α)} {values : List α} :
    (name, values) ∈ ofList items ↔ values ≠ [] ∧ values = addedUnder items name := by
  constructor
  · intro h
    refine ⟨ne_nil_of_mem_ofList items _ h, ?_⟩
    rw [← valuesOf_ofList, (sorted_ofList items).valuesOf_eq h]
  · rintro ⟨hne, rfl⟩
    obtain ⟨v, hv⟩ := List.exists_mem_of_ne_nil _ hne
    obtain ⟨item, hitem, rfl⟩ := List.mem_map.mp hv
    have hitem := List.mem_filter.mp hitem
    obtain rfl : item.1 = name := beq_iff_eq.mp hitem.2
    obtain ⟨values, hmem, -⟩ : Holds (ofList items) item.1 item.2 := holds_ofList.mpr hitem.1
    have hvalues := (sorted_ofList items).valuesOf_eq hmem
    rw [valuesOf_ofList] at hvalues
    exact hvalues ▸ hmem

theorem Sorted.nodup_names (h : Sorted groups) : (names groups).Nodup := by
  rw [names, List.nodup_iff_pairwise_ne, List.pairwise_map]
  exact List.Pairwise.imp ne_of_compare_lt h

theorem Sorted.names_lt (h : Sorted groups) : (names groups).Pairwise (· < ·) := by
  rw [names, List.pairwise_map]
  exact List.Pairwise.imp compareOfLessAndEq_eq_lt.mp h

theorem mem_names_ofList {items : List (String × α)} :
    name ∈ names (ofList items) ↔ addedUnder items name ≠ [] := by
  rw [names, List.mem_map]
  constructor
  · rintro ⟨⟨n, values⟩, hgroup, rfl⟩
    obtain ⟨hne, hvalues⟩ := mem_ofList.mp hgroup
    exact hvalues ▸ hne
  · intro hne
    exact ⟨(name, addedUnder items name), mem_ofList.mpr ⟨hne, rfl⟩, rfl⟩

theorem mem_names_iff {items : List (String × α)} :
    name ∈ names (ofList items) ↔ name ∈ items.map Prod.fst := by
  rw [mem_names_ofList, addedUnder, Ne, List.map_eq_nil_iff, List.filter_eq_nil_iff, List.mem_map]
  simp

/-- There is one group for each name, however often the name was given. -/
theorem length_ofList (items : List (String × α)) :
    (ofList items).length = (items.map Prod.fst).dedup.length := by
  have hperm : (names (ofList items)).Perm (items.map Prod.fst).dedup := by
    apply (List.perm_ext_iff_of_nodup (sorted_ofList items).nodup_names (List.nodup_dedup _)).mpr
    intro name
    rw [mem_names_iff, List.mem_dedup]
  rw [← hperm.length_eq, names, List.length_map]

/-- The groups are the names that were added with something, each with all of that. -/
theorem ofList_eq_map (items : List (String × α)) :
    ofList items = (names (ofList items)).map fun name => (name, addedUnder items name) := by
  have hgroup : ∀ group ∈ ofList items, (group.1, addedUnder items group.1) = group :=
    fun group h => Prod.ext rfl (mem_ofList.mp h).2.symm
  rw [names, List.map_map]
  calc ofList items = (ofList items).map id := (List.map_id _).symm
    _ = (ofList items).map ((fun name => (name, addedUnder items name)) ∘ Prod.fst) :=
        List.map_congr_left fun group h => (hgroup group h).symm

/-! ### All values -/

/-- The values with their names, group after group. -/
def spread (groups : Groups α) : List (String × α) :=
  groups.flatMap fun group => group.2.map (Prod.mk group.1)

theorem spread_cons (group : String × List α) (rest : Groups α) :
    spread (group :: rest) = group.2.map (Prod.mk group.1) ++ spread rest :=
  List.flatMap_cons

theorem spread_add :
    (spread (add name value groups)).Perm ((name, value) :: spread groups) := by
  induction groups with
  | nil => exact List.Perm.refl _
  | cons group rest ih =>
      obtain ⟨first, values⟩ := group
      rw [add]
      cases hc : compare name first with
      | lt => exact List.Perm.refl _
      | eq =>
          obtain rfl : name = first := Std.LawfulEqCmp.eq_of_compare hc
          show (spread ((name, values ++ [value]) :: rest)).Perm _
          rw [spread_cons, spread_cons, List.map_append, List.append_assoc]
          exact List.perm_middle
      | gt =>
          show (spread ((first, values) :: add name value rest)).Perm _
          rw [spread_cons, spread_cons]
          exact (ih.append_left _).trans List.perm_middle

/-- Grouping loses no value, adds none and leaves each its name. -/
theorem spread_ofList (items : List (String × α)) : (spread (ofList items)).Perm items := by
  induction items using List.reverseRecOn with
  | nil => exact List.Perm.refl _
  | append_singleton items item ih =>
      rw [ofList_concat]
      exact spread_add.trans ((ih.cons item).trans (List.perm_append_singleton item items).symm)

theorem total_eq (groups : Groups α) : groups.total = (spread groups).length := by
  induction groups with
  | nil => rfl
  | cons group rest ih =>
      rw [spread_cons, List.length_append, List.length_map, ← ih]
      rfl

theorem total_ofList (items : List (String × α)) : total (ofList items) = items.length := by
  rw [total_eq, (spread_ofList items).length_eq]

end Groups

/-! ## Positions -/

theorem map_snd_filter_zipIdx {α : Type} (p : α → Bool) (items : List α) (start : Nat) :
    ((items.zipIdx start).filter fun q => p q.1).map Prod.snd = items.findIdxs p start := by
  induction items generalizing start with
  | nil => rfl
  | cons item rest ih =>
      rw [List.zipIdx_cons, List.filter_cons, List.findIdxs_cons]
      split
      · rw [List.map_cons, ih]
      · exact ih (start + 1)

/-- At the positions of the items that satisfy `p` stand these items, in order. -/
theorem filterMap_findIdxs {α : Type} (p : α → Bool) (items : List α) :
    ((items.findIdxs p).filterMap fun i => items[i]?) = items.filter p := by
  have hplace : ∀ q ∈ items.zipIdx.filter (fun q => p q.1), items[q.2]? = some q.1 :=
    fun q hq => List.mem_zipIdx_iff_getElem?.mp (List.mem_filter.mp hq).1
  rw [← map_snd_filter_zipIdx, List.filterMap_map]
  calc (items.zipIdx.filter fun q => p q.1).filterMap ((fun i => items[i]?) ∘ Prod.snd)
      = (items.zipIdx.filter fun q => p q.1).map Prod.fst := by
        rw [← List.filterMap_eq_map']
        exact List.filterMap_congr hplace
    _ = (items.zipIdx.map Prod.fst).filter p := List.filter_map.symm
    _ = items.filter p := by rw [List.zipIdx_map_fst]

namespace Bibliography

variable {es : List Entry} {key : String}

theorem hasKey_ofEntries : (ofEntries es).hasKey key = es.any fun e => key == e.key := by
  have hany : (es.zipIdx.map Prod.fst).any (fun e => key == e.key) =
      es.any fun e => key == e.key := by
    rw [List.zipIdx_map_fst]
  rw [hasKey, ofEntries, Groups.has_ofList, ← hany, List.any_map, List.any_map]
  rfl

/-- The index keeps, of each key, the positions of its entries. -/
theorem positions_ofEntries :
    (ofEntries es).positions.valuesOf key = es.findIdxs fun e => e.key == key := by
  rw [ofEntries, Groups.valuesOf_ofList, Groups.addedUnder, List.filter_map, List.map_map,
    ← map_snd_filter_zipIdx]
  rfl

/-- The index finds the entries of a key that a search from the first to the last one finds. -/
theorem allWithKey_ofEntries : (ofEntries es).allWithKey key = es.filter fun e => e.key == key := by
  rw [allWithKey, positions_ofEntries]
  exact filterMap_findIdxs _ es

/-- The entries with a key are entries of the bibliography. -/
theorem mem_of_mem_allWithKey {b : Bibliography} {e : Entry} (h : e ∈ b.allWithKey key) :
    e ∈ b.entries := by
  obtain ⟨i, -, hi⟩ := List.mem_filterMap.mp h
  exact List.mem_of_getElem? hi

end Bibliography

/-! ## Sorted characters -/

variable {c d : Char} {cs : List Char}

/-- In increasing order of code points. -/
def Increasing (cs : List Char) : Prop :=
  cs.Pairwise fun a b => a.toNat < b.toNat

theorem mem_insertChar : d ∈ insertChar c cs ↔ d = c ∨ d ∈ cs := by
  induction cs with
  | nil => rw [insertChar, List.mem_singleton, or_iff_left List.not_mem_nil]
  | cons e rest ih =>
      rw [insertChar]
      split
      · exact List.mem_cons
      · split
        · next hsame =>
            obtain rfl : c = e := Char.toNat_inj.mp (beq_iff_eq.mp hsame)
            rw [List.mem_cons, or_self_left]
        · rw [List.mem_cons, List.mem_cons, ih]
          exact or_left_comm

theorem increasing_insertChar (h : Increasing cs) : Increasing (insertChar c cs) := by
  induction cs with
  | nil => exact List.pairwise_singleton _ c
  | cons e rest ih =>
      obtain ⟨hfirst, hrest⟩ := List.pairwise_cons.mp h
      rw [insertChar]
      split
      · next hless =>
          refine List.pairwise_cons.mpr ⟨?_, h⟩
          intro d hd
          rcases List.mem_cons.mp hd with rfl | hd
          · exact hless
          · exact Nat.lt_trans hless (hfirst d hd)
      · next hnot =>
          split
          · exact h
          · next hne =>
              refine List.pairwise_cons.mpr ⟨?_, ih hrest⟩
              intro d hd
              rcases mem_insertChar.mp hd with rfl | hd
              · rw [beq_iff_eq] at hne
                omega
              · exact hfirst d hd

theorem mem_distinctChars : d ∈ distinctChars cs ↔ d ∈ cs := by
  induction cs with
  | nil => exact Iff.rfl
  | cons c rest ih =>
      show d ∈ insertChar c (distinctChars rest) ↔ _
      rw [mem_insertChar, ih, List.mem_cons]

theorem increasing_distinctChars (cs : List Char) : Increasing (distinctChars cs) := by
  induction cs with
  | nil => exact List.Pairwise.nil
  | cons c rest ih => exact increasing_insertChar ih

/-- Increasing characters hold none of them twice. -/
theorem Increasing.nodup (h : Increasing cs) : cs.Nodup := by
  apply List.Pairwise.imp _ h
  rintro a _ hless rfl
  exact Nat.lt_irrefl a.toNat hless

/-- There is one way only to list the same characters in increasing order. -/
theorem Increasing.eq_of_mem_iff {ds : List Char} (hc : Increasing cs) (hd : Increasing ds)
    (h : ∀ c, c ∈ cs ↔ c ∈ ds) : cs = ds := by
  apply List.Perm.eq_of_pairwise _ hc hd
  · exact (List.perm_ext_iff_of_nodup hc.nodup hd.nodup).mpr h
  · exact fun a b _ _ hab hba => absurd hba (Nat.lt_asymm hab)

end BibAudit
