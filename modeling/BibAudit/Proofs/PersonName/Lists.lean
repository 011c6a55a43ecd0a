/-
# BibAudit.Proofs.PersonName.Lists — lists of names that were written are read again.

An item of a list is a person, whose last name is written first with a comma or last without one, a body
in braces, or `others`.  Joined by `and` and enclosed in braces or quotes, the items give a list in which
the persons are found again, each with the first and the last name it was written with, and nobody else.

The words of a person's name know no braces, and the word `and` is not among them; so a name closes
whatever its neighbours are.  A body has its words in braces, and may have an `and` among them.
-/
import BibAudit.Proofs.PersonName.Bodies

namespace BibAudit.PersonName

open Value (isBrace surplus)

variable {s t : List Char} {n : PersonName} {given parts : List (List Char)}

/-! ## What may be written -/

/-- Words with single spaces between them, without braces, none of them `and`. -/
structure IsPlain (s : List Char) : Prop where
  spaced : [' '].intercalate (Text.words s) = s
  braceless : ∀ c ∈ s, isBrace c = false
  free : conjunction ∉ Text.words s

/-- A first name, or a last one. -/
structure IsNamePart (s : List Char) : Prop extends IsPlain s where
  filled : s ≠ []
  commaless : ',' ∉ s

/-- A name with both its parts. -/
structure IsPerson (n : PersonName) : Prop where
  first : IsNamePart n.first.toList
  last : IsNamePart n.last.toList

/-- Without a comma, where the last name begins is told by the particles: all its words are particles
but the last one, and the first name does not end with one. -/
structure TellsApart (n : PersonName) : Prop where
  parts : ∀ w ∈ (Text.words n.last.toList).dropLast, w ∈ particles
  given : ∀ w ∈ (Text.words n.first.toList).getLast?, w ∉ particles

instance (s : List Char) : Decidable (IsPlain s) :=
  decidable_of_iff ([' '].intercalate (Text.words s) = s ∧ (s.all fun c => !isBrace c) = true ∧
      (Text.words s).contains conjunction = false)
    ⟨fun ⟨hs, hb, hf⟩ => ⟨hs, by simpa using hb, by simpa using hf⟩,
      fun h => ⟨h.spaced, by simpa using h.braceless, by simpa using h.free⟩⟩

instance (s : List Char) : Decidable (IsNamePart s) :=
  decidable_of_iff (IsPlain s ∧ s ≠ [] ∧ ',' ∉ s)
    ⟨fun ⟨hp, hf, hc⟩ => ⟨hp, hf, hc⟩, fun h => ⟨h.toIsPlain, h.filled, h.commaless⟩⟩

instance (n : PersonName) : Decidable (IsPerson n) :=
  decidable_of_iff (IsNamePart n.first.toList ∧ IsNamePart n.last.toList)
    ⟨fun ⟨hf, hl⟩ => ⟨hf, hl⟩, fun h => ⟨h.first, h.last⟩⟩

instance (n : PersonName) : Decidable (TellsApart n) :=
  decidable_of_iff (((Text.words n.last.toList).dropLast.all particles.contains) = true ∧
      ((Text.words n.first.toList).getLast?.all fun w => !particles.contains w) = true)
    ⟨fun ⟨hp, hg⟩ => ⟨by simpa using hp, by simpa [Option.all_eq_true] using hg⟩,
      fun h => ⟨by simpa using h.parts, by simpa [Option.all_eq_true] using h.given⟩⟩

/-- An item of a list of names. -/
inductive Item where
  | lastFirst (n : PersonName)
  | firstLast (n : PersonName)
  | body (text : List Char)
  | others

namespace Item

/-- How the item is written. -/
def written : Item → List Char
  | lastFirst n => n.last.toList ++ ", ".toList ++ n.first.toList
  | firstLast n => n.first.toList ++ " ".toList ++ n.last.toList
  | body text => text
  | others => "others".toList

/-- Whom the item names. -/
def person? : Item → Option PersonName
  | lastFirst n => some n
  | firstLast n => some n
  | body _ => none
  | others => none

/-- What an item has to be to be found again. -/
def WellFormed : Item → Prop
  | lastFirst n => IsPerson n
  | firstLast n => IsPerson n ∧ TellsApart n
  | body text => IsOneGroup text
  | others => True

end Item

/-- The items with an `and` between each two. -/
def listOf (items : List Item) : List Char :=
  " and ".toList.intercalate (items.map Item.written)

/-! ## Plain texts -/

theorem IsNamePart.words_ne_nil (h : IsNamePart s) : Text.words s ≠ [] := by
  intro hwords
  have hspaced := h.spaced
  rw [hwords] at hspaced
  exact h.filled hspaced.symm

theorem IsNamePart.exists_last_word (h : IsNamePart s) : ∃ front w, Text.words s = front ++ [w] := by
  obtain ⟨front, w, hwords⟩ := (List.eq_nil_or_concat (Text.words s)).resolve_left h.words_ne_nil
  exact ⟨front, w, by rw [hwords, List.concat_eq_append]⟩

theorem IsPlain.tight (h : IsPlain s) : Text.Tight s := by
  have htight := Text.tight_join fun w (hw : w ∈ Text.words s) => Text.isWord_of_mem_words hw
  rwa [h.spaced] at htight

theorem IsPlain.filter_eq (h : IsPlain s) : (s.filter fun c => !(c == '{' || c == '}')) = s := by
  rw [List.filter_eq_self]
  intro c hc
  have hbrace := h.braceless c hc
  rw [isBrace] at hbrace
  rw [hbrace]
  rfl

/-- A text with a space in it is plain if what stands on either side is. -/
theorem IsPlain.append (hs : IsPlain s) (ht : IsPlain t) (hws : Text.words s ≠ [])
    (hwt : Text.words t ≠ []) : IsPlain (s ++ ' ' :: t) := by
  have hwords : Text.words (s ++ ' ' :: t) = Text.words s ++ Text.words t :=
    Text.words_append_blank rfl s t
  refine ⟨?_, ?_, ?_⟩
  · rw [hwords, Text.join_append hws hwt, hs.spaced, ht.spaced]
  · rw [List.forall_mem_append, List.forall_mem_cons]
    exact ⟨hs.braceless, rfl, ht.braceless⟩
  · rw [hwords, List.mem_append, not_or]
    exact ⟨hs.free, ht.free⟩

/-- A comma goes with the last word. -/
theorem words_comma (h : IsNamePart s) : ∃ front w, Text.words s = front ++ [w] ∧
    Text.words (s ++ [',']) = front ++ [w ++ [',']] := by
  obtain ⟨front, w, hwords⟩ := h.exists_last_word
  refine ⟨front, w, hwords, ?_⟩
  have hword : ∀ v ∈ front ++ [w], Text.IsWord v := by
    rw [← hwords]
    exact fun v hv => Text.isWord_of_mem_words hv
  rw [List.forall_mem_append, List.forall_mem_singleton] at hword
  have hlast : Text.IsWord (w ++ [',']) := by
    refine ⟨by simp, ?_⟩
    rw [List.forall_mem_append, List.forall_mem_singleton]
    exact ⟨hword.2.visible, rfl⟩
  rw [← h.spaced, hwords, Text.join_concat_append, Text.words_join]
  rw [List.forall_mem_append, List.forall_mem_singleton]
  exact ⟨hword.1, hlast⟩

/-- With a comma behind it, a last name is plain as before. -/
theorem IsNamePart.comma (h : IsNamePart s) : IsPlain (s ++ [',']) := by
  obtain ⟨front, w, hwords, hcomma⟩ := words_comma h
  refine ⟨?_, ?_, ?_⟩
  · rw [hcomma, ← Text.join_concat_append, ← hwords, h.spaced]
  · rw [List.forall_mem_append, List.forall_mem_singleton]
    exact ⟨h.braceless, rfl⟩
  · have hfree := h.free
    rw [hwords, List.mem_append, not_or] at hfree
    rw [hcomma, List.mem_append, List.mem_singleton, not_or]
    -- The word that takes the comma may have been anything, but is not `and` any more.
    refine ⟨hfree.1, fun hand => ?_⟩
    have hmem : ',' ∈ conjunction := hand ▸ List.mem_append_right w List.mem_cons_self
    exact absurd hmem (by decide)

theorem closes_of_isPlain (h : IsPlain s) : Closes 0 (Text.words s) := by
  have hflat : ∀ c ∈ (Text.words s).flatten, isBrace c = false := by
    intro c hc
    rw [Text.flatten_words] at hc
    exact h.braceless c (List.mem_of_mem_filter hc)
  refine ⟨fun part hp => ?_, ?_, fun before after hwords => ?_⟩
  · rw [Value.surplus_eq_zero fun c hc => hflat c (hp.subset hc)]
    exact Int.le_refl 0
  · rw [Value.surplus_eq_zero hflat]
    rfl
  · exact absurd (hwords ▸ List.mem_append_right before List.mem_cons_self) h.free

/-- A plain text with a character that `others` lacks is read. -/
theorem IsPlain.isRead {c : Char} (h : IsPlain s) (hc : c ∈ s) (hout : c ∉ "others".toList) :
    isRead s = true := by
  rw [isRead_iff]
  refine ⟨List.ne_nil_of_mem hc, fun hs => hout (hs ▸ hc), ?_⟩
  rw [← Bool.not_eq_true, isBraced_iff]
  rintro ⟨inner, rfl⟩
  have hopen := h.braceless '{' List.mem_cons_self
  exact absurd hopen (by decide)

/-! ## Persons -/

theorem IsPerson.isPlain_lastFirst (h : IsPerson n) :
    IsPlain (n.last.toList ++ [','] ++ ' ' :: n.first.toList) := by
  refine h.last.comma.append h.first.toIsPlain ?_ h.first.words_ne_nil
  obtain ⟨front, w, -, hwords⟩ := words_comma h.last
  rw [hwords]
  simp

theorem IsPerson.isPlain_firstLast (h : IsPerson n) :
    IsPlain (n.first.toList ++ ' ' :: n.last.toList) :=
  h.first.toIsPlain.append h.last.toIsPlain h.first.words_ne_nil h.last.words_ne_nil

theorem IsPerson.first_ne_empty (h : IsPerson n) : n.first.isEmpty = false := by
  rw [← Bool.not_eq_true, String.isEmpty_iff]
  intro hempty
  exact h.first.filled (by rw [hempty]; rfl)

theorem parse_lastFirst (h : IsPerson n) :
    parse (n.last.toList ++ [','] ++ ' ' :: n.first.toList) = n := by
  have hindent : Text.trim ([' '] ++ n.first.toList) = n.first.toList :=
    h.first.tight.trim_indented (by simp [Text.isBlank])
  rw [parse, h.isPlain_lastFirst.filter_eq, List.append_assoc, List.singleton_append,
    Text.cutAt_append h.last.commaless]
  show PersonName.mk (String.ofList (Text.trim ([' '] ++ n.first.toList)))
    (String.ofList (Text.trim n.last.toList)) = n
  rw [hindent, h.last.tight.trim_eq, String.ofList_toList, String.ofList_toList]

/-- The particles in front of the last word go with it if no particle stands in front of them. -/
theorem ofWords_append (hparts : ∀ w ∈ parts, w ∈ particles)
    (hgiven : ∀ w ∈ given.getLast?, w ∉ particles) (surname : List Char) :
    ofWords (given ++ (parts ++ [surname])) =
      ⟨String.ofList ([' '].intercalate given),
        String.ofList ([' '].intercalate (parts ++ [surname]))⟩ := by
  have hbelong : ∀ w ∈ parts.reverse, particles.contains w = true := fun w hw =>
    List.contains_iff_mem.mpr (hparts w (List.mem_reverse.mp hw))
  have hstop : ∀ w ∈ given.reverse.head?, particles.contains w = false := by
    intro w hw
    rw [List.head?_reverse] at hw
    exact Bool.eq_false_iff.mpr fun hparticle => hgiven w hw (List.contains_iff_mem.mp hparticle)
  rw [← List.append_assoc, ofWords, List.getLast?_concat]
  simp only [List.dropLast_concat, List.reverse_append, Text.dropWhile_run hbelong hstop,
    Text.takeWhile_run hbelong hstop, List.reverse_reverse]

theorem parse_firstLast (h : IsPerson n) (htells : TellsApart n) :
    parse (n.first.toList ++ ' ' :: n.last.toList) = n := by
  have hcomma : ',' ∉ n.first.toList ++ ' ' :: n.last.toList := by
    rw [List.mem_append, List.mem_cons, not_or, not_or]
    exact ⟨h.first.commaless, by decide, h.last.commaless⟩
  obtain ⟨parts, surname, hwords⟩ := h.last.exists_last_word
  have hparts := htells.parts
  rw [hwords, List.dropLast_concat] at hparts
  rw [parse, h.isPlain_firstLast.filter_eq, Text.cutAt_eq_none hcomma,
    Text.words_append_blank rfl, hwords]
  show ofWords _ = n
  rw [ofWords_append hparts htells.given, ← hwords, h.first.spaced, h.last.spaced,
    String.ofList_toList, String.ofList_toList]

/-! ## Bodies -/

theorem flatten_words_group (inner : List Char) :
    (Text.words ('{' :: (inner ++ ['}']))).flatten =
      '{' :: (inner.filter (fun c => !Text.isBlank c) ++ ['}']) := by
  rw [Text.flatten_words, filter_group rfl rfl]

/-- In a text that is one group, its first brace is open in front of every `and`. -/
theorem closes_of_isOneGroup (h : IsOneGroup s) : Closes 0 (Text.words s) := by
  obtain ⟨hflat, hclosed⟩ := matched_iff.mp (matched_words.mpr h.matched)
  obtain ⟨inner, rfl, hinner⟩ := h
  have hlevel := (level_filter (fun c => !Text.isBlank c) rfl rfl).mpr (matched_iff.mp hinner).1
  refine ⟨hflat, by rw [hclosed]; rfl, fun before after hwords => ?_⟩
  have hparts := flatten_words_group inner
  rw [hwords, List.flatten_append, List.flatten_cons] at hparts
  rcases List.append_eq_cons_iff.mp hparts with ⟨-, hand⟩ | ⟨part, hbefore, hinside⟩
  · cases hand
  · -- The `and` is not the closing brace, so what stands before it ends inside the group.
    have hprefix : part <+: inner.filter fun c => !Text.isBlank c := by
      rcases List.append_eq_append_iff.mp hinside with ⟨more, hpart, hend⟩ | ⟨more, hpart, -⟩
      · rcases List.append_eq_singleton_iff.mp hend.symm with ⟨-, hand⟩ | ⟨-, hand⟩
        · cases hand
        · cases hand
      · exact ⟨more, hpart.symm⟩
    have hopen := hlevel part hprefix
    rw [hbefore, Value.surplus_cons]
    show 0 < 0 + (1 + surplus part)
    omega

theorem isBraced_of_isOneGroup (h : IsOneGroup s) :
    isBraced ([' '].intercalate (Text.words s)) = true := by
  obtain ⟨inner, rfl, -⟩ := h
  have hfilled : ∀ w ∈ Text.words ('{' :: (inner ++ ['}'])), w ≠ [] := fun w hw =>
    Text.ne_nil_of_mem_words hw
  rw [isBraced, Text.head?_join hfilled, Text.getLast?_join hfilled, flatten_words_group,
    ← List.cons_append, List.getLast?_concat]
  rfl

/-! ## Items -/

theorem isPlain_others : IsPlain "others".toList := by decide

namespace Item

variable {item : Item}

theorem written_lastFirst (n : PersonName) :
    (lastFirst n).written = n.last.toList ++ [','] ++ ' ' :: n.first.toList := by
  show n.last.toList ++ [',', ' '] ++ n.first.toList = _
  simp

theorem written_firstLast (n : PersonName) :
    (firstLast n).written = n.first.toList ++ ' ' :: n.last.toList := by
  show n.first.toList ++ [' '] ++ n.last.toList = _
  simp

/-- A person is read with the name that was written, either way round. -/
theorem person_read (h : item.WellFormed) (hn : item.person? = some n) :
    IsPlain item.written ∧ isRead item.written = true ∧ parse item.written = n ∧
      n.first.isEmpty = false := by
  cases item with
  | lastFirst m =>
      cases hn
      have hplain := IsPerson.isPlain_lastFirst h
      rw [written_lastFirst]
      refine ⟨hplain, hplain.isRead (c := ',') (by simp) (by decide), parse_lastFirst h,
        h.first_ne_empty⟩
  | firstLast m =>
      cases hn
      obtain ⟨hperson, htells⟩ := h
      have hplain := hperson.isPlain_firstLast
      rw [written_firstLast]
      refine ⟨hplain, hplain.isRead (c := ' ') (by simp) (by decide),
        parse_firstLast hperson htells, hperson.first_ne_empty⟩
  | body text => cases hn
  | others => cases hn

/-- Bodies and `others` are not read. -/
theorem not_read (h : item.WellFormed) (hn : item.person? = none) :
    isRead ([' '].intercalate (Text.words item.written)) = false := by
  cases item with
  | lastFirst n => cases hn
  | firstLast n => cases hn
  | body text =>
      show isRead ([' '].intercalate (Text.words text)) = false
      rw [isRead, isBraced_of_isOneGroup h, Bool.not_true, Bool.and_false]
  | others =>
      show isRead ([' '].intercalate (Text.words "others".toList)) = false
      rw [isPlain_others.spaced]
      rfl

/-- An item closes, whatever stands in front of it and behind it. -/
theorem closes (h : item.WellFormed) : Closes 0 (Text.words item.written) := by
  cases item with
  | lastFirst n => exact closes_of_isPlain (person_read h rfl).1
  | firstLast n => exact closes_of_isPlain (person_read h rfl).1
  | body text => exact closes_of_isOneGroup h
  | others => exact closes_of_isPlain isPlain_others

end Item

/-! ## Lists -/

variable {items : List Item}

/-- The words of a list are those of its items, with an `and` between each two items. -/
theorem words_listOf (items : List Item) : Text.words (listOf items) =
    [conjunction].intercalate (items.map fun item => Text.words item.written) := by
  induction items with
  | nil => rfl
  | cons item rest ih =>
      cases rest with
      | nil => rw [listOf, List.map_singleton, List.map_singleton, List.intercalate_singleton,
          List.intercalate_singleton]
      | cons next more =>
          have hcons : listOf (item :: next :: more) =
              item.written ++ ' ' :: (conjunction ++ ' ' :: listOf (next :: more)) := by
            rw [listOf, List.map_cons, List.map_cons, List.intercalate_cons_cons, List.append_assoc]
            rfl
          have hand : Text.words conjunction = [conjunction] := rfl
          rw [hcons, Text.words_append_blank rfl, Text.words_append_blank rfl, hand, ih]
          simp only [List.map_cons, List.intercalate_cons_cons, List.append_assoc]

theorem isSplit_listOf (hne : items ≠ []) (h : ∀ item ∈ items, item.WellFormed) :
    IsSplit (Text.words (listOf items)) (items.map fun item => Text.words item.written) := by
  refine ⟨by simpa using hne, (words_listOf items).symm, ?_⟩
  rw [List.forall_mem_map]
  exact fun item hitem => Item.closes (h item hitem)

/-- One by one the items give the persons that they name. -/
theorem read_items (h : ∀ item ∈ items, item.WellFormed) :
    (((items.map fun item => [' '].intercalate (Text.words item.written)).filter isRead).map
      parse).filter (fun n => !n.first.isEmpty) = items.filterMap Item.person? := by
  induction items with
  | nil => rfl
  | cons item rest ih =>
      obtain ⟨hitem, hrest⟩ := List.forall_mem_cons.mp h
      rw [List.map_cons]
      cases hn : item.person? with
      | none =>
          rw [List.filter_cons_of_neg (by simp [Item.not_read hitem hn]), ih hrest,
            List.filterMap_cons_none hn]
      | some n =>
          obtain ⟨hplain, hread, hparse, hfirst⟩ := Item.person_read hitem hn
          rw [hplain.spaced, List.filter_cons_of_pos hread, List.map_cons, hparse,
            List.filter_cons_of_pos (by simp [hfirst]), ih hrest, List.filterMap_cons_some hn]

/-- A list that was written of well-formed items, in braces or quotes, is read as the persons among
them, in order, each with the names that were written. -/
theorem parseList_listOf {opening closing : Char} (henclosed : IsEnclosure opening closing)
    (items : List Item) (h : ∀ item ∈ items, item.WellFormed) :
    parseList (String.ofList (opening :: (listOf items ++ [closing]))) =
      items.filterMap Item.person? := by
  rw [parseList_enclosed henclosed]
  by_cases hne : items = []
  · subst hne
    rfl
  · rw [(isSplit_listOf hne h).splitNames_eq, List.map_map]
    exact read_items h

/-- Last name first, first name first with a particle, a body with an `and` in it, and others. -/
def mixedItems : List Item :=
  [.lastFirst ⟨"Donald E.", "Knuth"⟩, .firstLast ⟨"Ludwig", "van Beethoven"⟩,
    .body "\x7bSmith and Sons\x7d".toList, .lastFirst ⟨"M.", "Koo"⟩, .others]

theorem parseList_listOf_mixed :
    IsEnclosure '{' '}' ∧ (∀ item ∈ mixedItems, item.WellFormed) ∧
      parseList ("\x7bKnuth, Donald E. and Ludwig van Beethoven and \x7bSmith and Sons\x7d" ++
          " and Koo, M. and others\x7d") =
        [⟨"Donald E.", "Knuth"⟩, ⟨"Ludwig", "van Beethoven"⟩, ⟨"M.", "Koo"⟩] := by
  have henclosed : IsEnclosure '{' '}' := .inl ⟨rfl, rfl⟩
  have hknuth : IsPerson ⟨"Donald E.", "Knuth"⟩ := by decide
  have hbeethoven : IsPerson ⟨"Ludwig", "van Beethoven"⟩ ∧ TellsApart ⟨"Ludwig", "van Beethoven"⟩ := by
    decide
  have hsons : IsOneGroup "\x7bSmith and Sons\x7d".toList := ⟨"Smith and Sons".toList, rfl, .nil⟩
  have hkoo : IsPerson ⟨"M.", "Koo"⟩ := by decide
  have hitems : ∀ item ∈ mixedItems, item.WellFormed := by
    simp only [mixedItems, List.forall_mem_cons]
    exact ⟨hknuth, hbeethoven, hsons, hkoo, trivial, by simp⟩
  exact ⟨henclosed, hitems, parseList_listOf henclosed mixedItems hitems⟩

end BibAudit.PersonName
