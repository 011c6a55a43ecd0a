/-
# BibAudit.Proofs.Checks.Duplication — entries that share a key or a title.

Two checks group the entries in scope by what they have in common, by their keys and by their
readable titles.  A group with more than one entry, or with more than one key, gets one complaint,
and the complaint names every entry of the group in order.  So two entries that share a key are
together in one complaint and in no other one, and so are two entries of different keys that share a
title; and what a complaint names has its key or its title in common.

Entries are told by their positions here, because one that is read twice is there twice.
-/
import BibAudit.Proofs.Checks.Collection
import Mathlib.Data.List.Forall2
import Mathlib.Data.List.Nodup

namespace BibAudit

variable {es group : List Entry} {e f : Entry} {check : Check} {c : Complaint} {i : Nat}
variable {name : Entry → Option String} {n : String} {names : List String}

/-! ## Groups of entries -/

/-- The complaint is about all of these entries: it stands at the mark of the first one, under its
key, and refers to the marks of the others, in order. -/
structure Complaint.Joins (group : List Entry) (check : Check) (mark : Entry → Location)
    (c : Complaint) : Prop where
  check : c.check = check.name
  key : c.key = group.head?.map Entry.key
  places : c.location :: c.related = group.map mark

/-- The entries at some positions. -/
def entriesAt (es : List Entry) (positions : List Nat) : List Entry :=
  positions.filterMap fun i => es[i]?

/-- The positions of the entries that bear a name, in order. -/
def bearers (name : Entry → Option String) (es : List Entry) (n : String) : List Nat :=
  es.findIdxs fun e => name e == some n

theorem entriesAt_bearers :
    entriesAt es (bearers name es n) = es.filter fun e => name e == some n :=
  filterMap_findIdxs _ es

theorem mem_entriesAt_bearers :
    e ∈ entriesAt es (bearers name es n) ↔ e ∈ es ∧ name e = some n := by
  rw [entriesAt_bearers, List.mem_filter, beq_iff_eq]

theorem mem_bearers : i ∈ bearers name es n ↔ ∃ e, es[i]? = some e ∧ name e = some n := by
  rw [bearers, List.mem_findIdxs_iff_exists_getElem_pos]
  constructor
  · rintro ⟨hi, hname⟩
    exact ⟨es[i], List.getElem?_eq_getElem hi, beq_iff_eq.mp hname⟩
  · rintro ⟨e, he, hname⟩
    obtain ⟨hi, rfl⟩ := List.getElem?_eq_some_iff.mp he
    exact ⟨hi, beq_iff_eq.mpr hname⟩

/-- What stands at two positions is two entries, even if they are equal. -/
theorem two_le_length_of_ne {j : Nat} (hi : i ∈ bearers name es n) (hj : j ∈ bearers name es n)
    (hne : i ≠ j) : 2 ≤ (entriesAt es (bearers name es n)).length := by
  have hlength : (entriesAt es (bearers name es n)).length = (bearers name es n).length := by
    rw [entriesAt_bearers, bearers, List.length_findIdxs, List.countP_eq_length_filter]
  rw [hlength]
  match hpositions : bearers name es n with
  | [] => simp [hpositions] at hi
  | [k] =>
      rw [hpositions, List.mem_singleton] at hi hj
      exact absurd (hi.trans hj.symm) hne
  | _ :: _ :: rest => exact Nat.le_add_left 2 rest.length

/-- Two related entries are together in one of the groups and in no other one, and a group holds no
entries but such as are akin. -/
structure CoveredOnce (es : List Entry) (related akin : Entry → Entry → Prop)
    (groups : List (List Nat)) : Prop where
  once : ∀ (i j : Nat) (e f : Entry), i ≠ j → es[i]? = some e → es[j]? = some f → related e f →
    ∃! k : Nat, ∃ group, groups[k]? = some group ∧ i ∈ group ∧ j ∈ group
  only : ∀ group ∈ groups, ∀ i ∈ group, ∀ j ∈ group,
    ∃ e f, es[i]? = some e ∧ es[j]? = some f ∧ akin e f

/-- The bearers of different names are in different groups, so names cover what bears them. -/
theorem coveredOnce_bearers {related akin : Entry → Entry → Prop} (hnodup : names.Nodup)
    (hrelated : ∀ (i j : Nat) (e f : Entry), i ≠ j → es[i]? = some e → es[j]? = some f →
      related e f → ∃ n ∈ names, name e = some n ∧ name f = some n)
    (hakin : ∀ e f n, name e = some n → name f = some n → akin e f) :
    CoveredOnce es related akin (names.map (bearers name es)) := by
  constructor
  · intro i j e f hne hi hj hef
    obtain ⟨n, hn, he, hf⟩ := hrelated i j e f hne hi hj hef
    obtain ⟨k, hk⟩ := List.mem_iff_getElem?.mp hn
    refine ⟨k, ⟨bearers name es n, by rw [List.getElem?_map, hk]; rfl,
      mem_bearers.mpr ⟨e, hi, he⟩, mem_bearers.mpr ⟨f, hj, hf⟩⟩, ?_⟩
    rintro l ⟨group, hl, hmem, -⟩
    rw [List.getElem?_map, Option.map_eq_some_iff] at hl
    obtain ⟨m, hl, rfl⟩ := hl
    obtain ⟨e', hi', he'⟩ := mem_bearers.mp hmem
    -- The entry bears one name only.
    obtain rfl : e = e' := Option.some.inj (hi.symm.trans hi')
    obtain rfl : n = m := Option.some.inj (he.symm.trans he')
    obtain ⟨hlength, -⟩ := List.getElem?_eq_some_iff.mp hl
    exact (List.getElem?_inj hlength hnodup).mp (hl.trans hk.symm)
  · intro group hgroup i hi j hj
    obtain ⟨n, -, rfl⟩ := List.mem_map.mp hgroup
    obtain ⟨e, hei, he⟩ := mem_bearers.mp hi
    obtain ⟨f, hfj, hf⟩ := mem_bearers.mp hj
    exact ⟨e, f, hei, hfj, hakin e f n he hf⟩

/-! ## Complaints about groups -/

/-- The entries with the names that they bear; those without one are left out. -/
def named (name : Entry → Option String) (es : List Entry) : List (String × Entry) :=
  es.filterMap fun e => (name e).map fun n => (n, e)

theorem addedUnder_named (name : Entry → Option String) (es : List Entry) (n : String) :
    Groups.addedUnder (named name es) n = es.filter fun e => name e == some n := by
  induction es with
  | nil => rfl
  | cons e rest ih =>
      rw [Groups.addedUnder] at ih ⊢
      cases he : name e with
      | none =>
          rw [named, List.filterMap_cons_none (by rw [he]; rfl), ← named, ih,
            List.filter_cons_of_neg (by simp [he])]
      | some m =>
          rw [named, List.filterMap_cons_some (by rw [he]; rfl), ← named]
          by_cases hm : m = n
          · rw [List.filter_cons_of_pos (by simpa using hm), List.map_cons, ih,
              List.filter_cons_of_pos (by simpa [he] using hm)]
          · rw [List.filter_cons_of_neg (by simpa using hm), ih,
              List.filter_cons_of_neg (by simpa [he] using hm)]

/-- Where each group gets one complaint or none, those that get one are told by their names, once
each, and their complaints stand in the same order. -/
theorem exists_reported (es : List Entry) (name : Entry → Option String)
    (worth : List Entry → Prop) (report : String → List Entry → List Complaint)
    (reports : String → List Entry → Complaint → Prop) (hfilled : ¬ worth [])
    (hone : ∀ n group, worth group → ∃ c, report n group = [c] ∧ reports n group c)
    (hnone : ∀ n group, ¬ worth group → report n group = []) :
    ∃ names, names.Nodup ∧
      (∀ n, n ∈ names ↔ worth (entriesAt es (bearers name es n))) ∧
      List.Forall₂ (fun n c => reports n (entriesAt es (bearers name es n)) c) names
        ((Groups.ofList (named name es)).flatMap fun (n, group) => report n group) := by
  classical
  let all := Groups.names (Groups.ofList (named name es))
  have hgroup : ∀ n, Groups.addedUnder (named name es) n = entriesAt es (bearers name es n) :=
    fun n => (addedUnder_named name es n).trans entriesAt_bearers.symm
  refine ⟨all.filter fun n => worth (entriesAt es (bearers name es n)), ?_, ?_, ?_⟩
  · exact (Groups.sorted_ofList (named name es)).nodup_names.filter _
  · intro n
    rw [List.mem_filter, decide_eq_true_eq, and_iff_right_iff_imp, Groups.mem_names_ofList, hgroup]
    rintro hworth hnil
    exact hfilled (hnil ▸ hworth)
  · rw [Groups.ofList_eq_map, List.flatMap_map]
    simp only [hgroup]
    show List.Forall₂ _ _ (all.flatMap fun n => report n (entriesAt es (bearers name es n)))
    induction all with
    | nil => exact List.Forall₂.nil
    | cons n rest ih =>
        rw [List.flatMap_cons]
        by_cases hworth : worth (entriesAt es (bearers name es n))
        · obtain ⟨c, hreport, hc⟩ := hone n _ hworth
          rw [List.filter_cons_of_pos (by simpa using hworth), hreport]
          exact List.Forall₂.cons hc ih
        · rw [List.filter_cons_of_neg (by simpa using hworth), hnone n _ hworth]
          exact ih

namespace Checks

variable {key title : String}

/-! ## Equal keys -/

/-- The key under which an entry is cited; every entry has one. -/
def citationKey (e : Entry) : Option String :=
  some e.key

/-- The complaint about the entries with a key, which lists where all of them are. -/
structure SameKeyReport (key : String) (group : List Entry) (c : Complaint) : Prop where
  joins : c.Joins group .duplicateEntries Entry.location
  message : c.message = s!"Citation key \"{key}\" is defined {group.length} times: " ++
    commaList (group.map fun e => e.location.text)

theorem sameKey_of_two (key : String) (h : 2 ≤ group.length) :
    ∃ c, sameKey key group = [c] ∧ SameKeyReport key group c := by
  match group with
  | first :: second :: rest => exact ⟨_, rfl, ⟨rfl, rfl, rfl⟩, rfl⟩

theorem sameKey_of_less (key : String) (h : ¬ 2 ≤ group.length) : sameKey key group = [] := by
  match group with
  | [] => rfl
  | [_] => rfl
  | _ :: _ :: rest => exact absurd (Nat.le_add_left 2 rest.length) h

/-! ## Equal titles -/

/-- Both entries have a readable title, and it is the same. -/
def SameTitle (e f : Entry) : Prop :=
  ∃ title, readableTitle? e = some title ∧ readableTitle? f = some title

/-- Among the entries are two with different keys. -/
def KeysDiffer (group : List Entry) : Prop :=
  ∃ e ∈ group, ∃ f ∈ group, e.key ≠ f.key

instance : DecidablePred KeysDiffer :=
  fun group => inferInstanceAs (Decidable (∃ e ∈ group, ∃ f ∈ group, e.key ≠ f.key))

/-- How the entries of a group but the first one are listed. -/
def otherEntries (group : List Entry) : String :=
  commaList (group.tail.map fun e => s!"{e.key} ({e.location.text})")

/-- The complaint about the entries with a title, which lists the others for the first one. -/
structure SameTitleReport (title : String) (group : List Entry) (c : Complaint) : Prop where
  joins : c.Joins group .identicalTitles fun e => e.locationOf "title"
  message : c.message =
    s!"Exact title match, possible duplicate of {otherEntries group}: \"{title}\""

theorem not_keysDiffer_nil : ¬ KeysDiffer [] := by
  rintro ⟨e, he, -⟩
  exact List.not_mem_nil he

theorem keysDiffer_cons {first : Entry} {rest : List Entry} :
    KeysDiffer (first :: rest) ↔ ¬ rest.all (fun e => e.key == first.key) = true := by
  rw [List.all_eq_true]
  simp only [beq_iff_eq, not_forall]
  constructor
  · rintro ⟨e, he, f, hf, hne⟩
    -- One of the two has another key than the first entry.
    by_contra hall
    push Not at hall
    have hfirst : ∀ g ∈ first :: rest, g.key = first.key := List.forall_mem_cons.mpr ⟨rfl, hall⟩
    exact hne ((hfirst e he).trans (hfirst f hf).symm)
  · rintro ⟨e, he, hne⟩
    exact ⟨e, List.mem_cons_of_mem first he, first, List.mem_cons_self, hne⟩

theorem sameTitle_of_keysDiffer (title : String) (h : KeysDiffer group) :
    ∃ c, sameTitle title group = [c] ∧ SameTitleReport title group c := by
  match group with
  | [] => exact absurd h not_keysDiffer_nil
  | first :: rest =>
      rw [sameTitle, if_neg (keysDiffer_cons.mp h)]
      exact ⟨_, rfl, ⟨rfl, rfl, rfl⟩, rfl⟩

theorem sameTitle_of_not_keysDiffer (title : String) (h : ¬ KeysDiffer group) :
    sameTitle title group = [] := by
  match group with
  | [] => rfl
  | first :: rest =>
      rw [keysDiffer_cons, not_not] at h
      rw [sameTitle, if_pos h]

/-! ## All entries in scope -/

/-- In scope is the bibliography, or what is cited of it.  There is one complaint for each key that two
entries in scope or more have, and one for each readable title that entries of different keys have.
It stands at the first of these entries and refers to all the others, in order.  Thereby two entries
with the same key, or with different keys and the same title, are together in one complaint and in no
other one, and no complaint names two entries but such as have the same key or the same title. -/
theorem duplicates_coveredOnce (ctx : Context) :
    ctx.LooksAt ctx.entries ∧
    (∃ keys cs, duplicateEntries ctx = .ok cs ∧ keys.Nodup ∧
      (∀ key, key ∈ keys ↔ 2 ≤ (entriesAt ctx.entries (bearers citationKey ctx.entries key)).length) ∧
      List.Forall₂ (fun key c =>
        SameKeyReport key (entriesAt ctx.entries (bearers citationKey ctx.entries key)) c) keys cs ∧
      CoveredOnce ctx.entries (fun e f => e.key = f.key) (fun e f => e.key = f.key)
        (keys.map (bearers citationKey ctx.entries))) ∧
    (∃ titles cs, identicalTitles ctx = .ok cs ∧ titles.Nodup ∧
      (∀ title, title ∈ titles ↔
        KeysDiffer (entriesAt ctx.entries (bearers readableTitle? ctx.entries title))) ∧
      List.Forall₂ (fun title c =>
        SameTitleReport title (entriesAt ctx.entries (bearers readableTitle? ctx.entries title)) c)
        titles cs ∧
      CoveredOnce ctx.entries (fun e f => e.key ≠ f.key ∧ SameTitle e f) SameTitle
        (titles.map (bearers readableTitle? ctx.entries))) := by
  refine ⟨ctx.looksAt_entries, ?_, ?_⟩
  · obtain ⟨keys, hnodup, hkeys, hreports⟩ := exists_reported ctx.entries citationKey
      (fun group => 2 ≤ group.length) sameKey SameKeyReport (by decide)
      (fun key _ => sameKey_of_two key) (fun key _ => sameKey_of_less key)
    have hnamed : named citationKey ctx.entries = ctx.entries.map fun e => (e.key, e) :=
      congrFun List.filterMap_eq_map' _
    rw [hnamed] at hreports
    refine ⟨keys, _, rfl, hnodup, hkeys, hreports, coveredOnce_bearers hnodup ?_ ?_⟩
    · intro i j e f hne hi hj hkey
      have hfirst : i ∈ bearers citationKey ctx.entries e.key := mem_bearers.mpr ⟨e, hi, rfl⟩
      have hsecond : j ∈ bearers citationKey ctx.entries e.key :=
        mem_bearers.mpr ⟨f, hj, congrArg some hkey.symm⟩
      exact ⟨e.key, (hkeys e.key).mpr (two_le_length_of_ne hfirst hsecond hne), rfl,
        congrArg some hkey.symm⟩
    · intro e f n he hf
      exact Option.some.inj (he.trans hf.symm)
  · obtain ⟨titles, hnodup, htitles, hreports⟩ := exists_reported ctx.entries readableTitle?
      KeysDiffer sameTitle SameTitleReport not_keysDiffer_nil
      (fun title _ => sameTitle_of_keysDiffer title)
      (fun title _ => sameTitle_of_not_keysDiffer title)
    refine ⟨titles, _, rfl, hnodup, htitles, hreports, coveredOnce_bearers hnodup ?_ ?_⟩
    · rintro i j e f - hi hj ⟨hkeys, title, he, hf⟩
      have hfirst := mem_entriesAt_bearers.mpr ⟨List.mem_of_getElem? hi, he⟩
      have hsecond := mem_entriesAt_bearers.mpr ⟨List.mem_of_getElem? hj, hf⟩
      exact ⟨title, (htitles title).mpr ⟨e, hfirst, f, hsecond, hkeys⟩, he, hf⟩
    · exact fun e f title he hf => ⟨title, he, hf⟩

/-- Of four cited entries two share a key, and two of different keys a title.  The last two share a key
as well, and one of them a title with a cited one, but are not cited. -/
def sharedContext : Context where
  bibliography := .ofEntries
    [⟨"misc", "knuth", ⟨"refs.bib"⟩, 1, 3, [("title", ⟨"\x7bBits\x7d", 2⟩)], []⟩,
      ⟨"misc", "hoare", ⟨"refs.bib"⟩, 4, 6, [("title", ⟨"\x7bClocks\x7d", 5⟩)], []⟩,
      ⟨"misc", "knuth", ⟨"refs.bib"⟩, 7, 8, [], []⟩,
      ⟨"misc", "gries", ⟨"refs.bib"⟩, 9, 11, [("title", ⟨"\x7bBits\x7d", 10⟩)], []⟩,
      ⟨"misc", "scott", ⟨"refs.bib"⟩, 12, 14, [("title", ⟨"\x7bClocks\x7d", 13⟩)], []⟩,
      ⟨"misc", "scott", ⟨"refs.bib"⟩, 15, 16, [], []⟩]
  citations := some (.ofList
    [⟨"gries", ⟨⟨"talk.tex"⟩, 1⟩⟩, ⟨"knuth", ⟨⟨"talk.tex"⟩, 2⟩⟩, ⟨"hoare", ⟨⟨"talk.tex"⟩, 2⟩⟩])
  probe := none
  onlyCited := true

/-- Where a complaint stands, and where the entries are that it refers to. -/
def spots (c : Complaint) : Nat × List Nat :=
  (c.location.line, c.related.map Location.line)

theorem duplicates_coveredOnce_cited :
    sharedContext.entries = sharedContext.bibliography.entries.take 4 ∧
      (∃ (keys : List String) (cs : List Complaint),
        duplicateEntries sharedContext = .ok cs ∧ cs.map spots = [(1, [7])] ∧
          "knuth" ∈ keys ∧ "scott" ∉ keys ∧
          ∃! k : Nat, ∃ group,
            (keys.map (bearers citationKey sharedContext.entries))[k]? = some group ∧
              0 ∈ group ∧ 2 ∈ group) ∧
      ∃ (titles : List String) (cs : List Complaint),
        identicalTitles sharedContext = .ok cs ∧ cs.map spots = [(2, [10])] ∧
          "Bits" ∈ titles ∧ "Clocks" ∉ titles ∧
          ∃! k : Nat, ∃ group,
            (titles.map (bearers readableTitle? sharedContext.entries))[k]? = some group ∧
              0 ∈ group ∧ 3 ∈ group := by
  obtain ⟨hscope, ⟨keys, cs, hkeyed, -, hkeys, -, hsame⟩,
    titles, ds, htitled, -, htitles, -, halike⟩ := duplicates_coveredOnce sharedContext
  refine ⟨?_, ⟨keys, cs, hkeyed, ?_, ?_, ?_, ?_⟩, titles, ds, htitled, ?_, ?_, ?_, ?_⟩
  · exact (hscope.cited _ rfl rfl).trans (by decide +kernel)
  · have hfound : (duplicateEntries sharedContext).map (List.map spots) = .ok [(1, [7])] := by
      decide +kernel
    rw [hkeyed] at hfound
    exact Except.ok.inj hfound
  · rw [hkeys]
    decide +kernel
  · rw [hkeys]
    decide +kernel
  · exact hsame.once 0 2 _ _ (by decide) rfl rfl rfl
  · have hfound : (identicalTitles sharedContext).map (List.map spots) = .ok [(2, [10])] := by
      decide +kernel
    rw [htitled] at hfound
    exact Except.ok.inj hfound
  · rw [htitles]
    decide +kernel
  · rw [htitles]
    decide +kernel
  · refine halike.once 0 3 _ _ (by decide) rfl rfl ⟨by decide, "Bits", ?_, ?_⟩
    · decide +kernel
    · decide +kernel

end Checks

end BibAudit
