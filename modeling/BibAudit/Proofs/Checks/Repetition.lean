/-
# BibAudit.Proofs.Checks.Repetition — a repeated stem is reported every twenty-first time.

A stem is sighted in a window if four words or more of it that count have the stem.  The memory of the
check holds, for every stem, a number that depends on nothing but how often that stem was sighted
before: none at first, then twenty, counted down to zero.  A sighting is reported where the number is
none or zero, which is at the first one and at every twenty-first after it.  One window may hold several
stems; each moves its own number and no other one.
-/
import BibAudit.Proofs.Groups
import BibAudit.Proofs.Text.Digits
import BibAudit.Proofs.Text.Trim
import BibAudit.Lint
import Mathlib.Data.List.Nodup

namespace BibAudit.Checks

variable {d : Document} {m : Memory} {stem other : String} {n k : Nat} {w : Word}
variable {window : List Word} {seen : String → Nat}

/-! ## Sightings -/

/-- The word has three characters or more in small letters, and is not one of those that may repeat. -/
def Counts (w : Word) : Prop :=
  3 ≤ (Text.lower w.text.toList).length ∧ Text.lower w.text.toList ∉ repeatable

instance : DecidablePred Counts :=
  fun _ => inferInstanceAs (Decidable (_ ∧ _))

/-- The stem of a word. -/
def stemOf (w : Word) : String :=
  String.ofList (Checks.stem (Text.lower w.text.toList))

/-- How many words of a window count and have the stem. -/
def occurrences (stem : String) (window : List Word) : Nat :=
  window.countP fun w => Counts w ∧ stemOf w = stem

/-- The stem occurs four times or more. -/
def Sighted (stem : String) (window : List Word) : Prop :=
  4 ≤ occurrences stem window

instance (stem : String) : DecidablePred (Sighted stem) :=
  fun _ => inferInstanceAs (Decidable (4 ≤ _))

theorem countedStem?_eq (w : Word) :
    countedStem? w = if Counts w then some (stemOf w) else none := by
  by_cases hlong : 3 ≤ (Text.lower w.text.toList).length
  · have hshort : ¬ (Text.lower w.text.toList).length < 3 := by omega
    by_cases hfree : Text.lower w.text.toList ∈ repeatable
    · simp [countedStem?, Counts, hfree]
    · simp [countedStem?, Counts, hlong, hshort, hfree, stemOf]
  · have hshort : (Text.lower w.text.toList).length < 3 := by omega
    simp [countedStem?, Counts, hlong, hshort]

theorem length_addedUnder (stem : String) (window : List Word) :
    (Groups.addedUnder ((window.filterMap countedStem?).map fun s => (s, ())) stem).length =
      occurrences stem window := by
  rw [Groups.addedUnder, List.length_map, ← List.countP_eq_length_filter, List.countP_map,
    List.countP_filterMap, occurrences]
  refine List.countP_congr fun w _ => ?_
  rw [countedStem?_eq]
  by_cases hc : Counts w
  · simp [hc]
  · simp [hc]

/-- The stems that are looked at in a window are those sighted there, each with the number of its
occurrences. -/
theorem mem_frequentStems :
    (stem, n) ∈ frequentStems window ↔ Sighted stem window ∧ n = occurrences stem window := by
  rw [frequentStems, List.mem_mergeSort, List.mem_filter, decide_eq_true_eq, List.mem_map, Sighted,
    repeatThreshold]
  constructor
  · rintro ⟨⟨⟨s, units⟩, hmem, heq⟩, hoften⟩
    obtain ⟨rfl, rfl⟩ := Prod.mk.inj heq
    obtain ⟨-, rfl⟩ := Groups.mem_ofList.mp hmem
    rw [length_addedUnder] at hoften ⊢
    exact ⟨hoften, rfl⟩
  · rintro ⟨hoften, rfl⟩
    refine ⟨⟨_, Groups.mem_ofList.mpr ⟨?_, rfl⟩, Prod.ext rfl (length_addedUnder stem window)⟩,
      hoften⟩
    rw [← List.length_pos_iff, length_addedUnder]
    omega

/-- No stem is looked at twice in a window. -/
theorem nodup_frequentStems (window : List Word) : ((frequentStems window).map Prod.fst).Nodup := by
  have hnames := (Groups.sorted_ofList
    ((window.filterMap countedStem?).map fun s => (s, ()))).nodup_names
  rw [frequentStems, ((List.mergeSort_perm _ _).map Prod.fst).nodup_iff]
  refine List.Nodup.sublist (List.Sublist.map Prod.fst List.filter_sublist) ?_
  rwa [List.map_map]

/-! ## One sighting -/

/-- What is remembered of a stem after so many sightings. -/
def silence : Nat → Option Nat
  | 0 => none
  | k + 1 => some (20 - k % 21)

/-- The memory knows of every stem how often it was sighted. -/
def Tracks (m : Memory) (seen : String → Nat) : Prop :=
  ∀ s, m.lookup s = silence (seen s)

theorem tracks_nil : Tracks [] fun _ => 0 :=
  fun _ => rfl

theorem lookup_filter_ne (stem : String) (m : Memory) (h : other ≠ stem) :
    (m.filter fun entry => entry.1 != stem).lookup other = m.lookup other := by
  induction m with
  | nil => rfl
  | cons entry rest ih =>
      obtain ⟨name, left⟩ := entry
      by_cases hname : name = stem
      · have hother : (other == name) = false := by simpa [hname] using h
        simp [List.lookup_cons, hname, ih, hname ▸ hother]
      · simp [List.lookup_cons, hname, ih]

theorem lookup_remember (stem : String) (n : Nat) (m : Memory) (other : String) :
    (remember stem n m).lookup other = if other = stem then some n else m.lookup other := by
  rw [remember, List.lookup_cons]
  by_cases h : other = stem
  · simp [h]
  · have hbeq : (other == stem) = false := by simpa using h
    rw [hbeq, if_neg h]
    exact lookup_filter_ne stem m h

/-- A sighting is reported if the number of earlier ones is a multiple of twenty-one.  It counts for its
own stem alone. -/
theorem sight_tracks (h : Tracks m seen) (stem : String) :
    (sight m stem).1 = decide (seen stem % 21 = 0) ∧
      Tracks (sight m stem).2 (Function.update seen stem (seen stem + 1)) := by
  have hafter : ∀ left, silence (seen stem + 1) = some left →
      Tracks (remember stem left m) (Function.update seen stem (seen stem + 1)) := by
    intro left hleft other
    rw [lookup_remember, Function.update_apply]
    split
    · exact hleft.symm
    · exact h other
  have hstem := h stem
  rcases Nat.eq_zero_or_pos (seen stem) with hnone | hpos
  · rw [hnone] at hstem
    have hsight : sight m stem = (true, remember stem holdOff m) := by rw [sight, hstem]; rfl
    rw [hsight]
    exact ⟨by simp [hnone], hafter holdOff (by rw [hnone]; rfl)⟩
  · obtain ⟨k, hk⟩ : ∃ k, seen stem = k + 1 := ⟨seen stem - 1, by omega⟩
    rw [hk, silence] at hstem
    -- The number runs out with the twentieth sighting after a report.
    by_cases hout : k % 21 = 20
    · have hzero : 20 - k % 21 = 0 := by omega
      have hsight : sight m stem = (true, remember stem holdOff m) := by rw [sight, hstem, hzero]
      rw [hsight]
      refine ⟨?_, hafter holdOff ?_⟩
      · symm
        rw [decide_eq_true_eq]
        omega
      · rw [hk, silence, holdOff, Option.some.injEq]
        omega
    · obtain ⟨left, hleft⟩ : ∃ left, 20 - k % 21 = left + 1 := ⟨19 - k % 21, by omega⟩
      have hsight : sight m stem = (false, remember stem left m) := by rw [sight, hstem, hleft]
      rw [hsight]
      refine ⟨?_, hafter left ?_⟩
      · symm
        rw [decide_eq_false_iff_not]
        omega
      · rw [hk, silence, Option.some.injEq]
        omega

/-! ## One window -/

/-- What is said of a stem. -/
def repeatMessage (stem : String) (count size : Nat) : String :=
  s!"Word stem \"{stem}\" occurs {count} times within {size} words"

/-- The complaint about a stem in a window, at the line of its first word. -/
def reportOf (d : Document) (stem : String) (window : List Word) : Complaint :=
  .raise Check.repeatedWords.name ⟨d.path, (window.head?.map Word.line).getD 0⟩
    (repeatMessage stem (occurrences stem window) window.length)

/-- Different stems do not disturb each other: each is reported, and remembered, for itself. -/
theorem sightAll_tracks (d : Document) (first : Word) (size : Nat) {stems : List (String × Nat)}
    (hnodup : (stems.map Prod.fst).Nodup) (h : Tracks m seen) :
    (sightAll d first size m stems).1 = (stems.filter fun c => seen c.1 % 21 = 0).map
        (fun c => complainOfWord .repeatedWords d first (repeatMessage c.1 c.2 size)) ∧
      Tracks (sightAll d first size m stems).2
        (fun s => if s ∈ stems.map Prod.fst then seen s + 1 else seen s) := by
  induction stems generalizing m seen with
  | nil => exact ⟨rfl, h⟩
  | cons counted rest ih =>
      obtain ⟨stem, count⟩ := counted
      obtain ⟨hfresh, hrest⟩ := List.nodup_cons.mp hnodup
      obtain ⟨hreport, hafter⟩ := sight_tracks h stem
      obtain ⟨hcomplaints, htracks⟩ := ih hrest hafter
      have hothers : ∀ c ∈ rest, Function.update seen stem (seen stem + 1) c.1 = seen c.1 := by
        intro c hc
        refine Function.update_of_ne ?_ _ _
        rintro rfl
        exact hfresh (List.mem_map.mpr ⟨c, hc, rfl⟩)
      have hfilter : (rest.filter fun c => Function.update seen stem (seen stem + 1) c.1 % 21 = 0) =
          rest.filter fun c => seen c.1 % 21 = 0 :=
        List.filter_congr fun c hc => by rw [hothers c hc]
      rw [hfilter] at hcomplaints
      refine ⟨?_, fun s => ?_⟩
      · rw [sightAll, List.filter_cons]
        simp only [hreport, hcomplaints]
        by_cases hturn : seen stem % 21 = 0
        · simp only [hturn, decide_true, if_true, List.map_cons]
          rfl
        · simp only [hturn, decide_false, if_false, Bool.false_eq_true]
      · have hpast : (sightAll d first size m ((stem, count) :: rest)).2 =
            (sightAll d first size (sight m stem).2 rest).2 := by
          rw [sightAll]
          simp only
          split <;> rfl
        rw [hpast, htracks s]
        by_cases hs : s = stem
        · subst hs
          have hmem : s ∈ ((s, count) :: rest).map Prod.fst := List.mem_cons_self
          simp only [if_neg hfresh, if_pos hmem, Function.update_self]
        · have hmem : s ∈ ((stem, count) :: rest).map Prod.fst ↔ s ∈ rest.map Prod.fst :=
            List.mem_cons.trans (or_iff_right hs)
          simp only [hmem, Function.update_of_ne hs]

/-- In one window, the stems sighted there are reported whose earlier sightings are a multiple of
twenty-one, and their sightings are counted. -/
theorem repeatedWords_tracks (d : Document) (hne : window ≠ []) (h : Tracks m seen) :
    (repeatedWords m d window).1 =
        ((frequentStems window).filter fun c => seen c.1 % 21 = 0).map
          (fun c => reportOf d c.1 window) ∧
      Tracks (repeatedWords m d window).2
        (fun s => if Sighted s window then seen s + 1 else seen s) := by
  obtain ⟨first, rest, rfl⟩ := List.exists_cons_of_ne_nil hne
  obtain ⟨hcomplaints, htracks⟩ := sightAll_tracks d first (first :: rest).length
    (nodup_frequentStems (first :: rest)) h
  constructor
  · rw [repeatedWords, hcomplaints]
    refine List.map_congr_left fun c hc => ?_
    obtain ⟨-, hcount⟩ := mem_frequentStems.mp (List.mem_filter.mp hc).1
    rw [hcount]
    rfl
  · intro s
    have hmem : s ∈ (frequentStems (first :: rest)).map Prod.fst ↔ Sighted s (first :: rest) := by
      rw [List.mem_map]
      constructor
      · rintro ⟨c, hc, rfl⟩
        exact (mem_frequentStems.mp hc).1
      · exact fun hs => ⟨(s, _), mem_frequentStems.mpr ⟨hs, rfl⟩, rfl⟩
    rw [repeatedWords, htracks s]
    simp only [hmem]

/-! ## Whose report it is -/

/-- The complaint is a report of this stem. -/
def Reports (stem : String) (c : Complaint) : Prop :=
  ∃ count ≤ 20, c.message = repeatMessage stem count 20

instance (stem : String) : DecidablePred (Reports stem) :=
  fun _ => inferInstanceAs (Decidable (∃ count ≤ 20, _))

theorem toList_repeatMessage (stem : String) (count size : Nat) :
    (repeatMessage stem count size).toList = "Word stem \"".toList ++ (stem.toList ++
      "\" occurs".toList ++ ' ' :: (toString count).toList ++ " times within ".toList ++
        (toString size).toList ++ " words".toList) := by
  have hspace : "\" occurs ".toList = "\" occurs".toList ++ [' '] := by decide
  show ("Word stem \"" ++ stem ++ "\" occurs " ++ toString count ++ " times within " ++
    toString size ++ " words").toList = _
  rw [String.toList_append, String.toList_append, String.toList_append, String.toList_append,
    String.toList_append, String.toList_append, hspace]
  simp only [List.append_assoc, List.cons_append, List.nil_append]

/-- A message tells its stem. -/
theorem repeatMessage_injective {count count' size : Nat}
    (h : repeatMessage stem count size = repeatMessage other count' size) : stem = other := by
  have hchars := congrArg String.toList h
  rw [toList_repeatMessage, toList_repeatMessage, List.append_cancel_left_eq,
    List.append_left_inj, List.append_left_inj, List.append_left_inj] at hchars
  -- The count is the digits at the end of what is left.
  have hcut := congrArg (Text.dropEndWhile Char.isDigit) hchars
  have hdigits : ∀ n : Nat, Text.dropEndWhile Char.isDigit (toString n).toList = [] := by
    intro n
    have hnumeral := Text.isNumeral_toString n
    rw [Text.isNumeral, Bool.and_eq_true, List.all_eq_true] at hnumeral
    exact Text.dropEndWhile_eq_nil hnumeral.2
  rw [Text.dropEndWhile_append_cons (by decide), Text.dropEndWhile_append_cons (by decide),
    hdigits, hdigits, List.append_left_inj, List.append_left_inj] at hcut
  exact String.toList_inj.mp hcut

theorem reports_iff (h : window.length = 20) (s : String) :
    Reports stem (reportOf d s window) ↔ s = stem := by
  constructor
  · rintro ⟨count, -, hmessage⟩
    have hmessage : repeatMessage s (occurrences s window) window.length =
        repeatMessage stem count 20 := hmessage
    rw [h] at hmessage
    exact repeatMessage_injective hmessage
  · rintro rfl
    refine ⟨occurrences s window, ?_, ?_⟩
    · exact h ▸ List.countP_le_length
    · rw [← h]
      rfl

theorem filter_eq_singleton {α : Type} {p : α → Bool} {items : List α} {item : α}
    (hnodup : items.Nodup) (h : ∀ a, a ∈ items.filter p ↔ a = item) : items.filter p = [item] := by
  rw [← List.perm_singleton, List.perm_ext_iff_of_nodup (hnodup.sublist List.filter_sublist)
    (List.nodup_singleton item)]
  simpa using h

/-- The reports of one stem in a window: one if it is sighted there and it is its turn, and else none. -/
theorem filter_repeatedWords (hsize : window.length = 20) (h : Tracks m seen) (stem : String) :
    (repeatedWords m d window).1.filter (Reports stem) =
      if Sighted stem window ∧ seen stem % 21 = 0 then [reportOf d stem window] else [] := by
  have hne : window ≠ [] := List.ne_nil_of_length_eq_add_one hsize
  rw [(repeatedWords_tracks d hne h).1, List.filter_map, List.filter_filter]
  have hmem : ∀ c, c ∈ (frequentStems window).filter (fun c =>
      ((fun r => decide (Reports stem r)) ∘ fun c => reportOf d c.1 window) c &&
        decide (seen c.1 % 21 = 0)) ↔
      c = (stem, occurrences stem window) ∧ Sighted stem window ∧ seen stem % 21 = 0 := by
    rintro ⟨s, n⟩
    simp only [List.mem_filter, Function.comp_apply, Bool.and_eq_true, decide_eq_true_eq,
      reports_iff hsize, mem_frequentStems, Prod.mk.injEq]
    constructor
    · rintro ⟨⟨hs, rfl⟩, rfl, hturn⟩
      exact ⟨⟨rfl, rfl⟩, hs, hturn⟩
    · rintro ⟨⟨rfl, rfl⟩, hs, hturn⟩
      exact ⟨⟨hs, rfl⟩, rfl, hturn⟩
  split
  · next hturn =>
      rw [filter_eq_singleton (nodup_frequentStems window).of_map
        fun c => (hmem c).trans (and_iff_left hturn)]
      rfl
  · next hturn =>
      rw [List.eq_nil_iff_forall_not_mem.mpr fun c hc => hturn ((hmem c).mp hc).2]
      rfl

/-! ## All windows of a document -/

/-- What is reported at each window, the memory being handed on from one to the next. -/
def windowReports (d : Document) : Memory → List (List Word) → List (List Complaint)
  | _, [] => []
  | m, window :: rest =>
    (repeatedWords m d window).1 :: windowReports d (repeatedWords m d window).2 rest

/-- The items whose index is a multiple of the period, the first one having the index `start`. -/
def everyFrom {α : Type} (period start : Nat) (items : List α) : List α :=
  ((items.zipIdx start).filter fun p => p.2 % period = 0).map Prod.fst

/-- The first item, and then one in each period. -/
def every {α : Type} (period : Nat) (items : List α) : List α :=
  everyFrom period 0 items

theorem everyFrom_cons {α : Type} (period start : Nat) (item : α) (items : List α) :
    everyFrom period start (item :: items) =
      if start % period = 0 then item :: everyFrom period (start + 1) items
      else everyFrom period (start + 1) items := by
  rw [everyFrom, List.zipIdx_cons, List.filter_cons]
  simp only [decide_eq_true_eq]
  split <;> rfl

variable {windows : List (List Word)}

/-- A window is reported of by what was sighted before it, whatever stands in between. -/
theorem windowReports_getElem? (d : Document) (hsize : ∀ window ∈ windows, window.length = 20)
    (h : Tracks m seen) {i : Nat} (hi : windows[i]? = some window) (stem : String) :
    ((windowReports d m windows)[i]?).map (List.filter (Reports stem)) =
      some (if Sighted stem window ∧
          (seen stem + (windows.take i).countP (Sighted stem)) % 21 = 0 then
        [reportOf d stem window] else []) := by
  induction windows generalizing m seen i with
  | nil => cases hi
  | cons first rest ih =>
      have hfirst : first.length = 20 := hsize first List.mem_cons_self
      have hne : first ≠ [] := List.ne_nil_of_length_eq_add_one hfirst
      cases i with
      | zero =>
          obtain rfl : first = window := by simpa using hi
          rw [windowReports, List.getElem?_cons_zero, Option.map_some,
            filter_repeatedWords hfirst h]
          rfl
      | succ i =>
          rw [List.getElem?_cons_succ] at hi
          rw [windowReports, List.getElem?_cons_succ,
            ih (fun w hw => hsize w (List.mem_cons_of_mem first hw))
              (repeatedWords_tracks d hne h).2 hi]
          have hcount : (if Sighted stem first then seen stem + 1 else seen stem) +
              (rest.take i).countP (Sighted stem) =
              seen stem + ((first :: rest).take (i + 1)).countP (Sighted stem) := by
            rw [List.take_succ_cons, List.countP_cons]
            simp only [decide_eq_true_eq]
            split
            · omega
            · omega
          simp only [hcount]

/-- Of the sightings of a stem, in order, every twenty-first is reported. -/
theorem filter_windowReports (hsize : ∀ window ∈ windows, window.length = 20) (h : Tracks m seen)
    (stem : String) : (windowReports d m windows).flatten.filter (Reports stem) =
      (everyFrom 21 (seen stem) (windows.filter (Sighted stem))).map (reportOf d stem) := by
  induction windows generalizing m seen with
  | nil => rfl
  | cons first rest ih =>
      have hfirst : first.length = 20 := hsize first List.mem_cons_self
      have hne : first ≠ [] := List.ne_nil_of_length_eq_add_one hfirst
      rw [windowReports, List.flatten_cons, List.filter_append, filter_repeatedWords hfirst h,
        ih (fun w hw => hsize w (List.mem_cons_of_mem first hw))
          (repeatedWords_tracks d hne h).2, List.filter_cons]
      by_cases hs : Sighted stem first
      · simp only [hs, decide_true, if_true, everyFrom_cons, true_and]
        split <;> rfl
      · simp [hs]

theorem mem_windowReports (hsize : ∀ window ∈ windows, window.length = 20) (h : Tracks m seen)
    {c : Complaint} (hc : c ∈ (windowReports d m windows).flatten) : ∃ stem, Reports stem c := by
  induction windows generalizing m seen with
  | nil => exact absurd hc List.not_mem_nil
  | cons first rest ih =>
      have hfirst : first.length = 20 := hsize first List.mem_cons_self
      have hne : first ≠ [] := List.ne_nil_of_length_eq_add_one hfirst
      obtain ⟨hcomplaints, htracks⟩ := repeatedWords_tracks d hne h
      rw [windowReports, List.flatten_cons] at hc
      rcases List.mem_append.mp hc with hc | hc
      · rw [hcomplaints] at hc
        obtain ⟨counted, -, rfl⟩ := List.mem_map.mp hc
        exact ⟨counted.1, (reports_iff hfirst counted.1).mpr rfl⟩
      · exact ih (fun w hw => hsize w (List.mem_cons_of_mem first hw)) htracks hc

theorem windows_eq {α : Type} {size : Nat} (hsize : 0 < size) (items : List α) :
    Lint.windows size items =
      (List.range (items.length + 1 - size)).map fun i => (items.drop i).take size := by
  induction items with
  | nil =>
      have hnone : ([] : List α).length + 1 - size = 0 := by
        rw [List.length_nil]
        omega
      rw [hnone]
      rfl
  | cons first rest ih =>
      rw [Lint.windows]
      split
      · next hfull =>
          rw [List.length_take, List.length_cons] at hfull
          have hmore : (first :: rest).length + 1 - size = (rest.length + 1 - size) + 1 := by
            rw [List.length_cons]
            omega
          rw [hmore, List.range_succ_eq_map, List.map_cons, List.map_map, ih]
          rfl
      · next hshort =>
          rw [List.length_take, List.length_cons] at hshort
          have hnone : (first :: rest).length + 1 - size = 0 := by
            rw [List.length_cons]
            omega
          rw [hnone]
          rfl

/-- The stretches of twenty consecutive words, in order. -/
def windowsOf (d : Document) : List (List Word) :=
  (List.range (d.words.length - 19)).map fun i => (d.words.drop i).take 20

theorem windows_words (d : Document) : Lint.windows 20 d.words = windowsOf d :=
  windows_eq (by omega) d.words

theorem length_of_mem_windowsOf (h : window ∈ windowsOf d) : window.length = 20 := by
  obtain ⟨i, hi, rfl⟩ := List.mem_map.mp h
  rw [List.mem_range] at hi
  rw [List.length_take, List.length_drop]
  omega

theorem onWindows_eq {run : Memory → Document → List Word → Findings × Memory}
    (hrun : Check.repeatedWords.body = .window run) (m : Memory) (windows : List (List Word)) :
    Lint.onWindows .repeatedWords d run m windows = (windowReports d m windows).flatten := by
  cases hrun
  induction windows generalizing m with
  | nil => rfl
  | cons window rest ih => rw [Lint.onWindows, windowReports, List.flatten_cons, ← ih]

/-- The windows in which a stem is sighted, in order. -/
def sightings (d : Document) (stem : String) : List (List Word) :=
  (windowsOf d).filter (Sighted stem)

/-- In every document, whatever other documents there are, a stem is reported at its first sighting and
at every twenty-first after it, each time at the first word of the window and with the number of its
occurrences there.  At each window it is reported once or not at all, by how often it was sighted in
earlier windows; nothing else is reported. -/
theorem repeatedWords_periodic (policy : Policy) (ctx : Context) (documents : List Document) :
    (Lint.runCheck policy ctx documents .repeatedWords).complaints =
        documents.flatMap (fun d => (windowReports d [] (windowsOf d)).flatten) ∧
      ∀ d : Document,
        (∀ stem, (windowReports d [] (windowsOf d)).flatten.filter (Reports stem) =
          (every 21 (sightings d stem)).map (reportOf d stem)) ∧
        (∀ stem i window, (windowsOf d)[i]? = some window →
          ((windowReports d [] (windowsOf d))[i]?).map (List.filter (Reports stem)) =
            some (if Sighted stem window ∧
                ((windowsOf d).take i).countP (Sighted stem) % 21 = 0 then
              [reportOf d stem window] else [])) ∧
        ∀ c ∈ (windowReports d [] (windowsOf d)).flatten, ∃ stem, Reports stem c := by
  have hsize : ∀ d, ∀ window ∈ windowsOf d, window.length = 20 :=
    fun d window => length_of_mem_windowsOf
  refine ⟨?_, fun d => ⟨fun stem => ?_, fun stem i window hi => ?_, fun c hc => ?_⟩⟩
  · show documents.flatMap (fun d => Lint.onWindows .repeatedWords d _ []
        (Lint.windows 20 d.words)) = _
    refine List.flatMap_congr fun d _ => ?_
    rw [windows_words, onWindows_eq rfl]
  · exact filter_windowReports (hsize d) tracks_nil stem
  · have hreport := windowReports_getElem? d (hsize d) tracks_nil hi stem
    simpa only [Nat.zero_add] using hreport
  · exact mem_windowReports (hsize d) tracks_nil hc

/-- A paper that says little but one word, in small letters and capitals, singular and plural. -/
def monotonousPaper : Document :=
  ⟨SourcePath.ofString "paper.tex", (List.range 42).map fun i =>
    ⟨if i % 3 = 0 then "Cats" else if i % 3 = 1 then "cat" else "the", i + 1⟩⟩

/-- The first sighting of the word is reported, the twenty-first is not, and the twenty-second is. -/
theorem repeatedWords_periodic_monotonous :
    let paper := monotonousPaper
    let reports := fun i => ((windowReports paper [] (windowsOf paper))[i]?).map
      (List.filter (Reports "cat"))
    (windowsOf paper)[0]? = some (paper.words.take 20) ∧
      reports 0 = some [reportOf paper "cat" (paper.words.take 20)] ∧
      (windowsOf paper)[20]? = some ((paper.words.drop 20).take 20) ∧ reports 20 = some [] ∧
      (windowsOf paper)[21]? = some ((paper.words.drop 21).take 20) ∧
      reports 21 = some [reportOf paper "cat" ((paper.words.drop 21).take 20)] := by
  intro paper reports
  have hreports := ((repeatedWords_periodic
    ⟨CheckSet.empty, true, false, 0⟩ ⟨.ofEntries [], none, none, false⟩ [paper]).2 paper).2.1 "cat"
  have hfirst : (windowsOf paper)[0]? = some (paper.words.take 20) := by decide +kernel
  have hsilent : (windowsOf paper)[20]? = some ((paper.words.drop 20).take 20) := by decide +kernel
  have hagain : (windowsOf paper)[21]? = some ((paper.words.drop 21).take 20) := by decide +kernel
  refine ⟨hfirst, ?_, hsilent, ?_, hagain, ?_⟩
  · exact (hreports 0 _ hfirst).trans (congrArg some (if_pos (by decide +kernel)))
  · exact (hreports 20 _ hsilent).trans (congrArg some (if_neg (by decide +kernel)))
  · exact (hreports 21 _ hagain).trans (congrArg some (if_pos (by decide +kernel)))

end BibAudit.Checks
