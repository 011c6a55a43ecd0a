/-
# BibAudit.Proofs.Location — the file that a source path names.

A file name is read as a route: from the root if a separator leads it and from the working directory
otherwise, through its components, where empty ones and `.` lead nowhere.  Taking `./` off the front
keeps the route as long as a component follows.  It does not where nothing follows, since a name is put
in, nor where a separator follows, which then leads the name and sends the route to the root.  All
other names keep their routes, and share a source path only if they share their route.
-/
import BibAudit.Location

namespace BibAudit.SourcePath

variable {cs rest : List Char} {s : String} {n : Nat}

/-! ## Routes -/

/-- Where a file name leads: from the root or from the working directory, through components. -/
structure Route where
  fromRoot : Bool
  names : List (List Char)
deriving DecidableEq

/-- The route that the characters of a file name spell. -/
def routeOf (cs : List Char) : Route :=
  ⟨cs.head? == some '/', components cs⟩

/-- The route of a file name. -/
def route (s : String) : Route :=
  routeOf s.toList

/-- Going nowhere at the start leads to the same components. -/
theorem components_here (cs : List Char) : components ('.' :: '/' :: cs) = components cs := by
  have hpieces : Text.splitWhere (· == '/') ('.' :: '/' :: cs) =
      ['.'] :: Text.splitWhere (· == '/') cs := by
    rw [Text.splitWhere, Text.splitWhere_cons_sep rfl]
    rfl
  rw [components, hpieces, List.filter_cons_of_neg (by decide)]
  rfl

/-! ## Names that lead nowhere first -/

/-- So many `./` in a row. -/
def here : Nat → List Char
  | 0 => []
  | n + 1 => '.' :: '/' :: here n

theorem components_here_append (n : Nat) (rest : List Char) :
    components (here n ++ rest) = components rest := by
  induction n with
  | zero => rfl
  | succ n ih => exact (components_here (here n ++ rest)).trans ih

theorem dropHere_here_append (n : Nat) (rest : List Char) :
    dropHere (here n ++ rest) = dropHere rest := by
  induction n with
  | zero => rfl
  | succ n ih =>
      show dropHere ('.' :: '/' :: (here n ++ rest)) = dropHere rest
      rw [dropHere, ih]

/-- What is taken off the front is a row of `./`. -/
theorem exists_here (cs : List Char) : ∃ n, cs = here n ++ dropHere cs := by
  induction cs using dropHere.induct with
  | case1 rest ih =>
      obtain ⟨n, hn⟩ := ih
      refine ⟨n + 1, ?_⟩
      rw [dropHere]
      exact congrArg ('.' :: '/' :: ·) hn
  | case2 cs hcs =>
      refine ⟨0, ?_⟩
      rw [dropHere]
      · rfl
      · exact hcs

theorem dropHere_here (n : Nat) : dropHere (here n) = [] := by
  have hrow := dropHere_here_append n []
  rwa [List.append_nil] at hrow

theorem dropHere_separator (n : Nat) (rest : List Char) :
    dropHere (here n ++ '/' :: rest) = '/' :: rest := by
  rw [dropHere_here_append]
  rfl

/-- A name that changes its route when its leading `./` are taken off: nothing or a separator follows
them. -/
def IsRerouted (cs : List Char) : Prop :=
  ∃ n, cs = here (n + 1) ∨ ∃ rest, cs = here (n + 1) ++ '/' :: rest

theorem isRerouted_iff : IsRerouted cs ↔
    dropHere cs ≠ cs ∧ (dropHere cs = [] ∨ (dropHere cs).head? = some '/') := by
  constructor
  · rintro ⟨n, rfl | ⟨rest, rfl⟩⟩
    · rw [dropHere_here]
      exact ⟨(List.cons_ne_nil _ _).symm, .inl rfl⟩
    · rw [dropHere_separator]
      refine ⟨fun hsame => ?_, .inr rfl⟩
      cases (List.cons.inj hsame).1
  · rintro ⟨hchanged, hrest⟩
    obtain ⟨n, hn⟩ := exists_here cs
    cases n with
    | zero => exact absurd hn.symm hchanged
    | succ n =>
        refine ⟨n, ?_⟩
        rcases hrest with hnil | hhead
        · rw [hnil, List.append_nil] at hn
          exact .inl hn
        · obtain ⟨rest, hslash⟩ := List.head?_eq_some_iff.mp hhead
          rw [hslash] at hn
          exact .inr ⟨rest, hn⟩

instance (cs : List Char) : Decidable (IsRerouted cs) :=
  decidable_of_iff _ isRerouted_iff.symm

/-! ## Normalized names -/

/-- Without backslashes, only the front of a name is touched. -/
theorem normalize_of_plain (h : '\\' ∉ cs) :
    normalize cs = if (dropHere cs).isEmpty then ['-'] else dropHere cs := by
  have hmap : cs.map (fun c => if c == '\\' then '/' else c) = cs := by
    refine (List.map_congr_left fun c hc => ?_).trans (List.map_id cs)
    rw [if_neg]
    · rfl
    · rw [beq_iff_eq]
      rintro rfl
      exact h hc
  rw [normalize, hmap]

theorem normalize_of_nothing (h : '\\' ∉ here n) : normalize (here n) = ['-'] := by
  rw [normalize_of_plain h, dropHere_here]
  rfl

theorem normalize_of_separator (h : '\\' ∉ here n ++ '/' :: rest) :
    normalize (here n ++ '/' :: rest) = '/' :: rest := by
  rw [normalize_of_plain h, dropHere_separator]
  rfl

/-- A name that is not rerouted keeps its route. -/
theorem routeOf_normalize (hfilled : cs ≠ []) (hplain : '\\' ∉ cs) (h : ¬ IsRerouted cs) :
    routeOf (normalize cs) = routeOf cs := by
  rw [normalize_of_plain hplain]
  by_cases hsame : dropHere cs = cs
  · rw [hsame, if_neg (by simpa using hfilled)]
  · obtain ⟨hrest, hslash⟩ := not_or.mp fun hgone => h (isRerouted_iff.mpr ⟨hsame, hgone⟩)
    obtain ⟨n, hn⟩ := exists_here cs
    cases n with
    | zero => exact absurd hn.symm hsame
    | succ n =>
        -- The row of `./` is gone, and with it a dot at the front; no separator took its place.
        have hhead : ((dropHere cs).head? == some '/') = false := by simpa using hslash
        have hnames : components cs = components (dropHere cs) := by
          rw [congrArg components hn, components_here_append]
        have hdot : cs.head? = some '.' := congrArg List.head? hn
        rw [if_neg (by simpa using hrest), routeOf, routeOf, hhead, hnames, hdot]
        rfl

/-- A name that is rerouted is given another file, or sent to the root. -/
theorem routeOf_normalize_ne (hplain : '\\' ∉ cs) (h : IsRerouted cs) :
    routeOf (normalize cs) ≠ routeOf cs := by
  obtain ⟨n, rfl | ⟨rest, rfl⟩⟩ := h
  · rw [normalize_of_nothing hplain]
    intro hroute
    have hnames : components ['-'] = components (here (n + 1)) := congrArg Route.names hroute
    rw [← List.append_nil (here (n + 1)), components_here_append] at hnames
    exact absurd hnames (by decide)
  · rw [normalize_of_separator hplain]
    intro hroute
    have hroot : true = false := congrArg Route.fromRoot hroute
    cases hroot

/-- A file name without backslashes keeps its route exactly if no `./` leads it with nothing or a
separator behind.  Where nothing is behind, the source path is the one of a text without a file; where
a separator is behind, it begins there, at the root.  Among the other names, those with one source path
have one route. -/
theorem ofString_exact (hfilled : s ≠ "") (hplain : '\\' ∉ s.toList) :
    (route (ofString s).text = route s ↔ ¬ IsRerouted s.toList) ∧
      (¬ IsRerouted s.toList →
        ((ofString s).text.toList.head? = some '/' ↔ s.toList.head? = some '/')) ∧
      (IsRerouted s.toList → (∃ n, s.toList = here (n + 1) ∧ (ofString s).text = "-") ∨
        ∃ n rest, s.toList = here (n + 1) ++ '/' :: rest ∧
          (ofString s).text = String.ofList ('/' :: rest)) ∧
      (∀ other, other ≠ "" → '\\' ∉ other.toList → ¬ IsRerouted s.toList →
        ¬ IsRerouted other.toList → ofString s = ofString other → route s = route other) := by
  have htext : ∀ name : String, (ofString name).text.toList = normalize name.toList :=
    fun name => String.toList_ofList
  have hkeeps : ∀ name : String, name ≠ "" → '\\' ∉ name.toList → ¬ IsRerouted name.toList →
      route (ofString name).text = route name := by
    intro name hname hslash hkept
    rw [route, htext]
    exact routeOf_normalize (fun hnil => hname (String.toList_inj.mp hnil)) hslash hkept
  refine ⟨⟨?_, hkeeps s hfilled hplain⟩, ?_, ?_, ?_⟩
  · intro hroute hrerouted
    rw [route, htext] at hroute
    exact routeOf_normalize_ne hplain hrerouted hroute
  · intro hkept
    have hroot := congrArg Route.fromRoot (hkeeps s hfilled hplain hkept)
    rw [← beq_iff_eq, ← beq_iff_eq (b := some '/')]
    exact (congrArg (· = true) hroot).to_iff
  · rintro ⟨n, hrow | ⟨rest, hrow⟩⟩
    · refine .inl ⟨n, hrow, ?_⟩
      rw [hrow] at hplain
      rw [ofString, hrow, normalize_of_nothing hplain]
    · refine .inr ⟨n, rest, hrow, ?_⟩
      rw [hrow] at hplain
      rw [ofString, hrow, normalize_of_separator hplain]
  · intro other hother hslash hkept hkept' hsame
    rw [← hkeeps s hfilled hplain hkept, ← hkeeps other hother hslash hkept', hsame]

theorem ofString_exact_kept :
    ("././a//b" ≠ "" ∧ '\\' ∉ "././a//b".toList ∧ ¬ IsRerouted "././a//b".toList) ∧
      route (ofString "././a//b").text = route "././a//b" ∧
      (IsRerouted "./".toList ∧ (ofString "./").text = "-") ∧
      ofString "././a//b" = ofString "a//b" ∧ route "././a//b" = route "a//b" := by
  have hplain : '\\' ∉ "././a//b".toList := by decide
  have hkept : ¬ IsRerouted "././a//b".toList := by decide
  have hrerouted : IsRerouted "./".toList := by decide
  have hsame : ofString "././a//b" = ofString "a//b" := by decide
  obtain ⟨hroute, -, -, hshared⟩ := ofString_exact (s := "././a//b") (by decide) hplain
  obtain ⟨-, -, hgiven, -⟩ := ofString_exact (s := "./") (by decide) (by decide)
  refine ⟨⟨by decide, hplain, hkept⟩, hroute.mpr hkept, ⟨hrerouted, ?_⟩, hsame, ?_⟩
  · rcases hgiven hrerouted with ⟨-, -, htext⟩ | ⟨n, rest, hrow, -⟩
    · exact htext
    · cases n <;> cases hrow
  · exact hshared "a//b" (by decide) (by decide) hkept (by decide) hsame

/-- A doubled separator behind `./` sends a name of the working directory to the root, where it meets
the name of another file. -/
theorem ofString_rerouted :
    route (ofString ".//a").text ≠ route ".//a" ∧
      (ofString ".//a" = ofString "/a" ∧ route ".//a" ≠ route "/a") ∧
      ¬ ∀ s : String, s ≠ "" → '\\' ∉ s.toList → route (ofString s).text = route s := by
  have hroute : route (ofString ".//a").text ≠ route ".//a" := by decide
  exact ⟨hroute, ⟨by decide, by decide⟩, fun h => hroute (h ".//a" (by decide) (by decide))⟩

end BibAudit.SourcePath
