/-
# BibAudit.Proofs.Lookup — an index answers as a search through everything does.

A bibliography looks a key up in an index of positions, and citations are looked up in groups that
were built one citation at a time.  Neither is the list that it was built from: keys that repeat fall
together, and the keys come in another order.  Still nothing is lost and nothing is there twice, so
each answer is the one that a search from the first entry, or the first citation, to the last gives.
-/
import BibAudit.Proofs.Checks.Citations

namespace BibAudit

/-! ## Entries by key -/

namespace Bibliography

variable {es : List Entry} {key : String} {i : Nat}

/-- Under a key the index keeps the positions of the entries with that key and no others. -/
theorem holds_positions : (ofEntries es).positions.Holds key i ↔
    ∃ e, es[i]? = some e ∧ e.key = key := by
  rw [ofEntries, Groups.holds_ofList, List.mem_map]
  constructor
  · rintro ⟨⟨e, n⟩, he, heq⟩
    obtain ⟨rfl, rfl⟩ := Prod.mk.inj heq
    exact ⟨e, List.mem_zipIdx_iff_getElem?.mp he, rfl⟩
  · rintro ⟨e, he, rfl⟩
    exact ⟨(e, i), List.mem_zipIdx_iff_getElem?.mpr he, rfl⟩

/-- No position of the index leads out of the bibliography. -/
theorem positions_inRange {group : String × List Nat} (hgroup : group ∈ (ofEntries es).positions)
    (hi : i ∈ group.2) : ∃ h : i < es.length, es[i].key = group.1 := by
  obtain ⟨e, he, hkey⟩ := holds_positions.mp ⟨group.2, hgroup, hi⟩
  obtain ⟨hlt, rfl⟩ := List.getElem?_eq_some_iff.mp he
  exact ⟨hlt, hkey⟩

/-- The first position of a key is that of its first entry. -/
theorem get?_ofEntries : (ofEntries es).get? key = es.find? fun e => e.key == key := by
  rw [← List.head?_filter, ← allWithKey_ofEntries, get?, allWithKey]
  cases hvalues : (ofEntries es).positions.valuesOf key with
  | nil => rfl
  | cons i rest =>
      -- The position leads to an entry, so the search does not pass over it.
      have hfirst : i ∈ (ofEntries es).positions.valuesOf key := hvalues ▸ List.mem_cons_self
      obtain ⟨e, he, -⟩ := holds_positions.mp (Groups.holds_of_mem_valuesOf hfirst)
      show es[i]? = ((i :: rest).filterMap fun i => es[i]?).head?
      rw [List.filterMap_cons_some he, List.head?_cons, he]

end Bibliography

/-! ## Citations by key -/

namespace Citations

variable {stream : List Citation} {key : String}

/-- The places of a key are where its citations stand, in the order in which they come. -/
theorem locations_ofList : (ofList stream).locations key =
    (stream.filter fun c => c.key == key).map Citation.location := by
  rw [locations, ofList, Groups.valuesOf_ofList, Groups.addedUnder, List.filter_map, List.map_map]
  rfl

theorem mem_names_places :
    key ∈ Groups.names (ofList stream).places ↔ ∃ c ∈ stream, c.key = key := by
  rw [ofList, Groups.mem_names_iff, List.map_map, List.mem_map]
  rfl

/-- The groups are the keys with their places. -/
theorem places_ofList : (ofList stream).places =
    (Groups.names (ofList stream).places).map fun key => (key, (ofList stream).locations key) := by
  have hgroups := Groups.ofList_eq_map (stream.map fun c => (c.key, c.location))
  simp only [← Groups.valuesOf_ofList] at hgroups
  exact hgroups

theorem distinct_ofList : (ofList stream).distinct = (stream.map Citation.key).dedup.length := by
  rw [distinct, ofList, Groups.length_ofList, List.map_map]
  rfl

theorem occurrences_ofList : (ofList stream).occurrences = stream.length := by
  rw [occurrences, ofList, Groups.total_ofList, List.length_map]

end Citations

/-- Whatever entries and citations there are, looking a key up gives what a search through all of
them gives: all entries of the key in order, the first of them, and whether there is one; the places
where it is cited in order, and whether there is one.  The index leads nowhere but to entries of the
key that it is asked for.  The citations come key by key, in code point order and each key once, with
all its places; there are as many keys as there are different ones in the stream, and as many
citations as it is long. -/
theorem lookups_search (es : List Entry) (stream : List Citation) :
    (∀ key, (Bibliography.ofEntries es).allWithKey key = es.filter (·.key == key) ∧
        (Bibliography.ofEntries es).get? key = es.find? (·.key == key) ∧
        ((Bibliography.ofEntries es).hasKey key = true ↔ ∃ e ∈ es, e.key = key)) ∧
      (∀ group ∈ (Bibliography.ofEntries es).positions, ∀ i ∈ group.2,
        ∃ h : i < es.length, es[i].key = group.1) ∧
      (∀ key, (Citations.ofList stream).locations key =
          (stream.filter (·.key == key)).map Citation.location ∧
        ((Citations.ofList stream).contains key = true ↔ ∃ c ∈ stream, c.key = key)) ∧
      (∃ keys : List String, keys.Pairwise (· < ·) ∧ keys.Nodup ∧
        (∀ key, key ∈ keys ↔ ∃ c ∈ stream, c.key = key) ∧
        (Citations.ofList stream).places =
          keys.map fun key => (key, (Citations.ofList stream).locations key)) ∧
      (Citations.ofList stream).distinct = (stream.map Citation.key).dedup.length ∧
      (Citations.ofList stream).occurrences = stream.length := by
  have hsorted := Groups.sorted_ofList (stream.map fun c => (c.key, c.location))
  refine ⟨fun key => ⟨?_, ?_, ?_⟩, ?_, fun key => ⟨?_, ?_⟩, ?_, ?_, ?_⟩
  · exact Bibliography.allWithKey_ofEntries
  · exact Bibliography.get?_ofEntries
  · exact Checks.hasKey_iff
  · exact fun group hgroup i hi => Bibliography.positions_inRange hgroup hi
  · exact Citations.locations_ofList
  · exact Checks.contains_iff
  · exact ⟨Groups.names (Citations.ofList stream).places, hsorted.names_lt, hsorted.nodup_names,
      fun key => Citations.mem_names_places, Citations.places_ofList⟩
  · exact Citations.distinct_ofList
  · exact Citations.occurrences_ofList

end BibAudit
