/-
# BibAudit.Proofs.Isbn.Checksum — what the check digit detects.

A number is checked by a sum over its places: each value times the weight of its place, which must be
divisible by eleven in the short form and by ten in the long one.  Every weight is prime to the modulus,
so no other value at one place leaves the sum divisible.  In the short form the weights are ten down to
one, and the difference of two of them is prime to eleven as well: two different values that change
places are noticed too.

Hyphens and spaces do not matter to any of this, wherever they stand.
-/
import BibAudit.Proofs.Isbn
import BibAudit.Proofs.Text.Digits
import Mathlib.Data.Nat.ModEq
import Mathlib.Tactic.Ring

namespace BibAudit.Isbn

variable {kind : Kind} {place : Nat} {cs xs ys zs : List Char} {ds es : List Nat} {a b c : Char}
  {d u v : Nat}

/-! ## Places of a number -/

namespace Kind

/-- How many characters a number of this form has. -/
def size : Kind → Nat
  | isbn10 => 10
  | isbn13 => 13

/-- What the sum over the places must be divisible by. -/
def modulus : Kind → Nat
  | isbn10 => 11
  | isbn13 => 10

/-- What the value at a place counts in the sum: ten down to one, or one and three by turns. -/
def weight : Kind → Nat → Nat
  | isbn10, place => 10 - place
  | isbn13, place => if place % 2 = 0 then 1 else 3

/-- The value of a character at a place.  In the last place of the short form X is ten. -/
def value? (kind : Kind) (place : Nat) (c : Char) : Option Nat :=
  if kind = isbn10 ∧ place = 9 then lastDigit? c else Text.decimalDigit? c

/-- The sum over the places from `place` on. -/
def weighted (kind : Kind) : Nat → List Nat → Nat
  | _, [] => 0
  | place, d :: ds => kind.weight place * d + weighted kind (place + 1) ds

/-- These characters, from `place` on, have these values. -/
inductive Spells (kind : Kind) : Nat → List Char → List Nat → Prop
  | nil {place : Nat} : Spells kind place [] []
  | cons {place : Nat} {c : Char} {d : Nat} {cs : List Char} {ds : List Nat} :
      kind.value? place c = some d → Spells kind (place + 1) cs ds →
        Spells kind place (c :: cs) (d :: ds)

/-- Every character has a value at its place, and the sum over the places is divisible. -/
def Checks (kind : Kind) (number : List Char) : Prop :=
  ∃ ds, kind.Spells 0 number ds ∧ kind.modulus ∣ kind.weighted 0 ds

theorem ofLength?_eq_some {n : Nat} : ofLength? n = some kind ↔ n = kind.size := by
  constructor
  · intro h
    unfold ofLength? at h
    split at h <;> cases h <;> rfl
  · rintro rfl
    cases kind <;> rfl

theorem size_injective {other : Kind} (h : kind.size = other.size) : kind = other := by
  cases kind <;> cases other <;> first | rfl | cases h

/-! ### A number in two parts -/

theorem weighted_append (kind : Kind) (place : Nat) (ds es : List Nat) :
    kind.weighted place (ds ++ es) =
      kind.weighted place ds + kind.weighted (place + ds.length) es := by
  induction ds generalizing place with
  | nil => rw [List.nil_append, weighted, Nat.zero_add]; rfl
  | cons d ds ih =>
      rw [List.cons_append, weighted, weighted, ih, List.length_cons]
      have hplace : place + 1 + ds.length = place + (ds.length + 1) := by omega
      rw [hplace, Nat.add_assoc]

theorem Spells.length_eq (h : kind.Spells place cs ds) : ds.length = cs.length := by
  induction h with
  | nil => rfl
  | cons _ _ ih => rw [List.length_cons, List.length_cons, ih]

theorem spells_cons : kind.Spells place (c :: cs) ds ↔
    ∃ d es, ds = d :: es ∧ kind.value? place c = some d ∧ kind.Spells (place + 1) cs es := by
  constructor
  · intro h
    cases h with
    | cons hc hcs => exact ⟨_, _, rfl, hc, hcs⟩
  · rintro ⟨d, es, rfl, hc, hcs⟩
    exact .cons hc hcs

theorem spells_append : kind.Spells place (xs ++ ys) ds ↔
    ∃ us vs, ds = us ++ vs ∧ kind.Spells place xs us ∧ kind.Spells (place + xs.length) ys vs := by
  induction xs generalizing place ds with
  | nil =>
      constructor
      · exact fun h => ⟨[], ds, rfl, .nil, h⟩
      · rintro ⟨us, vs, rfl, ⟨⟩, h⟩
        exact h
  | cons x xs ih =>
      have hplace : place + 1 + xs.length = place + (x :: xs).length := by
        rw [List.length_cons]
        omega
      rw [List.cons_append, spells_cons]
      constructor
      · rintro ⟨d, es, rfl, hx, hrest⟩
        obtain ⟨us, vs, rfl, hus, hvs⟩ := ih.mp hrest
        exact ⟨d :: us, vs, rfl, .cons hx hus, hplace ▸ hvs⟩
      · rintro ⟨us, vs, rfl, hus, hvs⟩
        cases hus with
        | cons hx hus => exact ⟨_, _, rfl, hx, ih.mpr ⟨_, _, rfl, hus, hplace ▸ hvs⟩⟩

theorem Spells.unique (hd : kind.Spells place cs ds) (he : kind.Spells place cs es) : ds = es := by
  induction hd generalizing es with
  | nil =>
      cases he
      rfl
  | cons hc _ ih =>
      cases he with
      | cons hc' hcs' =>
          rw [hc] at hc'
          rw [Option.some.inj hc', ih hcs']

/-! ### Values and weights of the two forms -/

theorem value?_of_ne (h : place ≠ 9) : kind.value? place c = Text.decimalDigit? c :=
  if_neg fun hlast => h hlast.2

theorem value?_isbn13 : isbn13.value? place c = Text.decimalDigit? c :=
  if_neg fun hlast => by cases hlast.1

theorem value?_last (c : Char) : isbn10.value? 9 c = lastDigit? c :=
  if_pos ⟨rfl, rfl⟩

end Kind

open Kind

theorem values10?_eq_some (hlength : place + cs.length = 10) (hne : cs ≠ []) :
    values10? cs = some ds ↔ isbn10.Spells place cs ds := by
  induction cs using values10?.induct generalizing place ds with
  | case1 => exact absurd rfl hne
  | case2 c =>
      obtain rfl : place = 9 := by simpa using hlength
      rw [values10?, spells_cons, value?_last, Option.map_eq_some_iff]
      constructor
      · rintro ⟨d, hd, rfl⟩
        exact ⟨d, [], rfl, hd, .nil⟩
      · rintro ⟨d, es, rfl, hd, ⟨⟩⟩
        exact ⟨d, hd, rfl⟩
  | case3 c rest hrest ih =>
      have hrest : rest ≠ [] := fun he => hrest he
      -- Another character follows, so this is not the last of ten.
      have hplace : place ≠ 9 := by
        have hpos : 0 < rest.length := List.length_pos_iff.mpr hrest
        rw [List.length_cons] at hlength
        omega
      have hstep : place + 1 + rest.length = 10 := by
        rw [← hlength, List.length_cons]
        omega
      rw [values10?, spells_cons, value?_of_ne hplace]
      · simp only [bind, Option.bind_eq_some_iff, pure, Option.some.injEq]
        constructor
        · rintro ⟨d, hd, es, hes, rfl⟩
          exact ⟨d, es, rfl, hd, (ih hstep hrest).mp hes⟩
        · rintro ⟨d, es, rfl, hd, hes⟩
          exact ⟨d, hd, es, (ih hstep hrest).mpr hes, rfl⟩
      · exact hrest

theorem mapM_decimalDigit?_eq_some :
    cs.mapM Text.decimalDigit? = some ds ↔ isbn13.Spells place cs ds := by
  induction cs generalizing place ds with
  | nil =>
      rw [List.mapM_nil]
      constructor
      · rintro ⟨⟩
        exact .nil
      · rintro ⟨⟩
        rfl
  | cons c rest ih =>
      rw [List.mapM_cons, spells_cons, value?_isbn13]
      simp only [bind, Option.bind_eq_some_iff, pure, Option.some.injEq]
      constructor
      · rintro ⟨d, hd, es, hes, rfl⟩
        exact ⟨d, es, rfl, hd, ih.mp hes⟩
      · rintro ⟨d, es, rfl, hd, hes⟩
        exact ⟨d, hd, es, ih.mpr hes, rfl⟩

theorem weight10_eq (h : place + ds.length = 10) : weight10 ds = isbn10.weighted place ds := by
  induction ds generalizing place with
  | nil => rfl
  | cons d ds ih =>
      rw [List.length_cons] at h
      have hstep : place + 1 + ds.length = 10 := by omega
      have hweight : isbn10.weight place = ds.length + 1 := by
        show 10 - place = ds.length + 1
        omega
      rw [weight10, weighted, ih hstep, hweight, Nat.mul_comm]

/-- The weights go by turns, so the induction takes two places at once. -/
theorem weight13_eq (h : place % 2 = 0) : weight13 ds = isbn13.weighted place ds := by
  have heven : ∀ place, place % 2 = 0 → isbn13.weight place = 1 := fun _ hp => if_pos hp
  induction ds using weight13.induct generalizing place with
  | case1 => rfl
  | case2 d =>
      rw [weight13, weighted, weighted, heven place h, Nat.one_mul]
      rfl
  | case3 d e rest ih =>
      have hodd : isbn13.weight (place + 1) = 3 := if_neg (by omega)
      rw [weight13, weighted, weighted, heven place h, hodd, ih (by omega : (place + 2) % 2 = 0)]
      show d + 3 * e + isbn13.weighted (place + 2) rest =
        1 * d + (3 * e + isbn13.weighted (place + 2) rest)
      omega

/-- Reading the values and summing them up, however it is done, decides whether a number checks. -/
theorem any_eq_true_iff_checks {read : Option (List Nat)} {total : List Nat → Nat}
    (hlength : cs.length = kind.size) (hread : ∀ ds, read = some ds ↔ kind.Spells 0 cs ds)
    (htotal : ∀ ds, ds.length = kind.size → total ds = kind.weighted 0 ds) :
    read.any (fun ds => total ds % kind.modulus == 0) = true ↔ kind.Checks cs := by
  rw [Option.any_eq_true]
  constructor
  · rintro ⟨ds, hds, hsum⟩
    have hspells := (hread ds).mp hds
    rw [htotal ds (hspells.length_eq.trans hlength), beq_iff_eq] at hsum
    exact ⟨ds, hspells, Nat.dvd_of_mod_eq_zero hsum⟩
  · rintro ⟨ds, hspells, hsum⟩
    refine ⟨ds, (hread ds).mpr hspells, ?_⟩
    rw [htotal ds (hspells.length_eq.trans hlength), beq_iff_eq]
    exact Nat.mod_eq_zero_of_dvd hsum

/-- The checksum is valid exactly if the number has one of the two lengths and its sum is divisible. -/
theorem checksumValid_iff (cs : List Char) : checksumValid cs = true ↔
    ∃ kind : Kind, (compact cs).length = kind.size ∧ kind.Checks (compact cs) := by
  unfold checksumValid
  simp only [← ofLength?_eq_some]
  cases hkind : Kind.ofLength? (compact cs).length with
  | none =>
      constructor
      · exact fun h => by cases h
      · rintro ⟨kind, hk, -⟩
        cases hk
  | some kind =>
      simp only [Option.some.injEq, exists_eq_left']
      have hlength := ofLength?_eq_some.mp hkind
      cases kind with
      | isbn10 =>
          have hne : compact cs ≠ [] := by
            intro he
            rw [he] at hlength
            cases hlength
          exact any_eq_true_iff_checks hlength
            (fun ds => values10?_eq_some (by rw [Nat.zero_add, hlength]; rfl) hne)
            (fun ds hds => weight10_eq (by rw [Nat.zero_add, hds]; rfl))
      | isbn13 =>
          exact any_eq_true_iff_checks hlength (fun ds => mapM_decimalDigit?_eq_some)
            (fun ds _ => weight13_eq rfl)

/-! ## One place, two places -/

theorem lastDigit?_le (h : lastDigit? c = some d) : d ≤ 10 := by
  unfold lastDigit? at h
  split at h
  · exact Nat.le_of_eq (Option.some.inj h).symm
  · exact Nat.le_of_lt (Text.decimalDigit?_lt h)

theorem lt_modulus_of_value? (h : kind.value? place c = some d) : d < kind.modulus := by
  cases kind with
  | isbn10 =>
      show d < 11
      unfold value? at h
      split at h
      · exact Nat.lt_succ_of_le (lastDigit?_le h)
      · have hdigit := Text.decimalDigit?_lt h
        omega
  | isbn13 =>
      rw [value?_isbn13] at h
      exact Text.decimalDigit?_lt h

theorem coprime_weight (h : place < kind.size) : Nat.Coprime kind.modulus (kind.weight place) := by
  cases kind with
  | isbn10 =>
      have hall : ∀ place < 10, Nat.Coprime 11 (10 - place) := by decide
      exact hall place h
  | isbn13 =>
      have hall : ∀ place < 13, Nat.Coprime 10 (if place % 2 = 0 then 1 else 3) := by decide
      exact hall place h

/-- A character inside of a number that checks adds its value times the weight of its place. -/
theorem checks_at (h : kind.Checks (xs ++ c :: ys)) : ∃ us d vs,
    kind.Spells 0 xs us ∧ kind.value? xs.length c = some d ∧ kind.Spells (xs.length + 1) ys vs ∧
      kind.modulus ∣ kind.weighted 0 us +
        (kind.weight xs.length * d + kind.weighted (xs.length + 1) vs) := by
  obtain ⟨ds, hspells, hsum⟩ := h
  obtain ⟨us, rest, rfl, hus, hrest⟩ := spells_append.mp hspells
  rw [Nat.zero_add] at hrest
  obtain ⟨d, vs, rfl, hd, hvs⟩ := spells_cons.mp hrest
  rw [weighted_append, hus.length_eq, Nat.zero_add, weighted] at hsum
  exact ⟨us, d, vs, hus, hd, hvs, hsum⟩

theorem modEq_of_dvd {m x y : Nat} (hx : m ∣ x) (hy : m ∣ y) : x ≡ y [MOD m] :=
  (Nat.modEq_zero_iff_dvd.mpr hx).trans (Nat.modEq_zero_iff_dvd.mpr hy).symm

/-- Of two numbers that check and differ at one place at most, the values at that place are the same. -/
theorem value?_eq_of_checks (hplace : xs.length < kind.size) (hc : kind.Checks (xs ++ c :: ys))
    (hb : kind.Checks (xs ++ b :: ys)) : kind.value? xs.length c = kind.value? xs.length b := by
  obtain ⟨us, d, vs, hus, hd, hvs, hsum⟩ := checks_at hc
  obtain ⟨us', e, vs', hus', he, hvs', hsum'⟩ := checks_at hb
  obtain rfl := hus.unique hus'
  obtain rfl := hvs.unique hvs'
  -- Around this place the numbers are the same, so the two sums differ in one term only.
  have hterm : kind.weight xs.length * d ≡ kind.weight xs.length * e [MOD kind.modulus] :=
    Nat.ModEq.add_right_cancel' _ (Nat.ModEq.add_left_cancel' _ (modEq_of_dvd hsum hsum'))
  have hvalue : d ≡ e [MOD kind.modulus] :=
    Nat.ModEq.cancel_left_of_coprime (coprime_weight hplace) hterm
  rw [hd, he, hvalue.eq_of_lt_of_lt (lt_modulus_of_value? hd) (lt_modulus_of_value? he)]

theorem lastDigit?_of_decimalDigit? (h : Text.decimalDigit? c = some d) : lastDigit? c = some d := by
  have hx : ∀ x, Text.decimalDigit? x = none → c ≠ x := by
    rintro x hx rfl
    rw [h] at hx
    cases hx
  unfold lastDigit?
  rw [if_neg, h]
  simp [hx 'X' rfl, hx 'x' rfl]

theorem lastDigit?_of_value? (h : kind.value? place c = some d) : lastDigit? c = some d := by
  unfold value? at h
  split at h
  · exact h
  · exact lastDigit?_of_decimalDigit? h

/-- A digit has its value at every place. -/
theorem value?_of_decimalDigit? (h : Text.decimalDigit? c = some d) :
    kind.value? place c = some d := by
  unfold value?
  split
  · exact lastDigit?_of_decimalDigit? h
  · exact h

/-- Two characters inside of a number that checks. -/
theorem checks_at_two (h : kind.Checks (xs ++ a :: (ys ++ b :: zs))) : ∃ us u ms v vs,
    kind.Spells 0 xs us ∧ kind.value? xs.length a = some u ∧
      kind.Spells (xs.length + 1) ys ms ∧ kind.value? (xs.length + 1 + ys.length) b = some v ∧
      kind.Spells (xs.length + 1 + ys.length + 1) zs vs ∧
      kind.modulus ∣ kind.weighted 0 us + (kind.weight xs.length * u +
        (kind.weighted (xs.length + 1) ms + (kind.weight (xs.length + 1 + ys.length) * v +
          kind.weighted (xs.length + 1 + ys.length + 1) vs))) := by
  obtain ⟨us, u, rest, hus, hu, hrest, hsum⟩ := checks_at h
  obtain ⟨ms, more, rfl, hms, hmore⟩ := spells_append.mp hrest
  obtain ⟨v, vs, rfl, hv, hvs⟩ := spells_cons.mp hmore
  rw [weighted_append, hms.length_eq, weighted] at hsum
  exact ⟨us, u, ms, v, vs, hus, hu, hms, hv, hvs, hsum⟩

/-- What exchanging two values adds to the sum is their difference, as often as their weights differ. -/
theorem exchange_eq (front middle back less more u v : Nat) :
    front + ((less + more) * u + (middle + (less * v + back))) =
      front + middle + back + less * (u + v) + more * u := by
  ring

/-- Of two short numbers that check and differ in the order of two characters at most, the values of the
two are the same. -/
theorem value?_eq_of_checks_swapped (hlength : (xs ++ a :: (ys ++ b :: zs)).length = isbn10.size)
    (h : isbn10.Checks (xs ++ a :: (ys ++ b :: zs)))
    (hswapped : isbn10.Checks (xs ++ b :: (ys ++ a :: zs))) :
    isbn10.value? xs.length a = isbn10.value? (xs.length + 1 + ys.length) b := by
  obtain ⟨us, u, ms, v, vs, hus, hu, hms, hv, hvs, hsum⟩ := checks_at_two h
  obtain ⟨us', v', ms', u', vs', hus', hv', hms', hu', hvs', hsum'⟩ := checks_at_two hswapped
  obtain rfl := hus.unique hus'
  obtain rfl := hms.unique hms'
  obtain rfl := hvs.unique hvs'
  have hplace : xs.length + 1 + ys.length + zs.length + 1 = 10 := by
    simp only [List.length_append, List.length_cons] at hlength
    show _ = isbn10.size
    omega
  -- Both characters have a value away from the last place, so they are digits.
  have hfirst : xs.length ≠ 9 := by omega
  have hdigit : ∀ {x w w'}, isbn10.value? xs.length x = some w →
      isbn10.value? (xs.length + 1 + ys.length) x = some w' → w = w' := by
    intro x w w' hw hw'
    rw [value?_of_ne hfirst] at hw
    rw [value?_of_decimalDigit? hw] at hw'
    exact Option.some.inj hw'
  obtain rfl := hdigit hu hu'
  obtain rfl := hdigit hv' hv
  have hweight : isbn10.weight xs.length =
      isbn10.weight (xs.length + 1 + ys.length) + (ys.length + 1) := by
    show 10 - xs.length = 10 - (xs.length + 1 + ys.length) + (ys.length + 1)
    omega
  rw [hweight, exchange_eq] at hsum hsum'
  rw [Nat.add_comm v' u] at hsum'
  have hterm : (ys.length + 1) * u ≡ (ys.length + 1) * v' [MOD isbn10.modulus] :=
    Nat.ModEq.add_left_cancel' _ (modEq_of_dvd hsum hsum')
  -- Two places of ten are less than eleven apart, and eleven is a prime.
  have hcoprime : Nat.Coprime 11 (ys.length + 1) := by
    have hall : ∀ n < 9, Nat.Coprime 11 (n + 1) := by decide
    exact hall ys.length (by omega)
  have hvalue : u ≡ v' [MOD isbn10.modulus] := Nat.ModEq.cancel_left_of_coprime hcoprime hterm
  rw [hu, hv, hvalue.eq_of_lt_of_lt (lt_modulus_of_value? hu) (lt_modulus_of_value? hv)]

/-! ## Numbers inside of a text -/

/-- A character that is no hyphen and no space. -/
def counts (c : Char) : Bool :=
  !(c == '-' || c == ' ')

/-- The characters of a number that stand in a text before a character that counts. -/
def countedBefore (before : List Char) : List Char :=
  (Text.trimStart before).filter counts

/-- The characters of a number that stand in a text behind a character that counts. -/
def countedBehind (after : List Char) : List Char :=
  (Text.trimEnd after).filter counts

/-- The value of a character of a text at its place.  Behind nine characters that count, and before
none, X is ten. -/
def valueIn? (before : List Char) (c : Char) (after : List Char) : Option Nat :=
  if (countedBefore before).length = 9 ∧ countedBehind after = [] then lastDigit? c
  else Text.decimalDigit? c

variable {before between after : List Char}

/-- Every character with a value counts, and is cut off by no trimming. -/
theorem counts_of_lastDigit? (h : lastDigit? c = some d) :
    Text.isBlank c = false ∧ counts c = true := by
  have hascii : c.toNat < 128 := by
    unfold lastDigit? at h
    split at h
    · next hx =>
        rw [Bool.or_eq_true, beq_iff_eq, beq_iff_eq] at hx
        rcases hx with rfl | rfl <;> decide
    · have hbounds := Text.toNat_of_isDigit (Text.decimalDigit?_eq_some.mp h).1
      omega
  have hall := Text.forall_ascii (p := fun c => (lastDigit? c).isSome = true →
    Text.isBlank c = false ∧ counts c = true) (by decide) hascii
  exact hall (by rw [h]; rfl)

theorem counts_of_valueIn? (h : valueIn? before c after = some v) :
    Text.isBlank c = false ∧ counts c = true := by
  unfold valueIn? at h
  split at h
  · exact counts_of_lastDigit? h
  · exact counts_of_lastDigit? (lastDigit?_of_decimalDigit? h)

theorem compact_append_cons (hc : Text.isBlank c = false ∧ counts c = true)
    (before after : List Char) :
    compact (before ++ c :: after) = countedBefore before ++ c :: countedBehind after := by
  show (Text.trim (before ++ c :: after)).filter counts = _
  rw [Text.trim_append_cons hc.1, List.filter_append, List.filter_cons_of_pos hc.2]
  rfl

theorem countedBefore_append_cons (hc : Text.isBlank c = false ∧ counts c = true)
    (before after : List Char) : countedBefore (before ++ c :: after) =
      countedBefore before ++ c :: after.filter counts := by
  unfold countedBefore
  rw [Text.trimStart_append_cons hc.1, List.filter_append, List.filter_cons_of_pos hc.2]

theorem countedBehind_append_cons (hc : Text.isBlank c = false ∧ counts c = true)
    (before after : List Char) : countedBehind (before ++ c :: after) =
      before.filter counts ++ c :: countedBehind after := by
  unfold countedBehind
  rw [Text.trimEnd_append_cons hc.1, List.filter_append, List.filter_cons_of_pos hc.2]

/-- The value of a character in a text is its value at its place of the number. -/
theorem valueIn?_eq (hsize : (countedBefore before ++ c :: countedBehind after).length = kind.size) :
    valueIn? before b after = kind.value? (countedBefore before).length b := by
  rw [List.length_append, List.length_cons] at hsize
  unfold valueIn? value?
  apply if_congr _ rfl rfl
  cases kind with
  | isbn10 =>
      have hten : isbn10.size = 10 := rfl
      refine ⟨fun h => ⟨rfl, h.1⟩, fun h => ⟨h.2, List.length_eq_zero_iff.mp ?_⟩⟩
      omega
  | isbn13 =>
      have hthirteen : isbn13.size = 13 := rfl
      refine ⟨fun h => ?_, fun h => by cases h.1⟩
      rw [h.2, List.length_nil] at hsize
      omega

theorem compact_two (ha : Text.isBlank a = false ∧ counts a = true)
    (hb : Text.isBlank b = false ∧ counts b = true) (before between after : List Char) :
    compact (before ++ a :: (between ++ b :: after)) =
      countedBefore before ++ a :: (between.filter counts ++ b :: countedBehind after) := by
  rw [compact_append_cons ha, countedBehind_append_cons hb]

/-- The second of two characters has as many places before it as count before and between them. -/
theorem valueIn?_second (ha : Text.isBlank a = false ∧ counts a = true)
    (hb : Text.isBlank b = false ∧ counts b = true)
    (hsize : (compact (before ++ a :: (between ++ b :: after))).length = kind.size) :
    valueIn? (before ++ a :: between) b after =
      kind.value? ((countedBefore before).length + 1 + (between.filter counts).length) b := by
  have hplace : (countedBefore (before ++ a :: between)).length =
      (countedBefore before).length + 1 + (between.filter counts).length := by
    rw [countedBefore_append_cons ha, List.length_append, List.length_cons]
    omega
  rw [← hplace]
  apply valueIn?_eq
  rw [← compact_append_cons hb, List.append_assoc]
  exact hsize

/-- In a number with a valid checksum, whatever hyphens and spaces it holds, a character replaced by one
of another value makes the checksum wrong.  So does, in the short form, an exchange of two characters
whose values differ, be it that X leaves the last place. -/
theorem checksumValid_detects (cs : List Char) (h : checksumValid cs = true) :
    (∀ before c after v, cs = before ++ c :: after → valueIn? before c after = some v →
        ∀ b w, valueIn? before b after = some w → w ≠ v →
          checksumValid (before ++ b :: after) = false) ∧
      ((compact cs).length = 10 → ∀ before a between b after u v,
        cs = before ++ a :: (between ++ b :: after) →
        valueIn? before a (between ++ b :: after) = some u →
        valueIn? (before ++ a :: between) b after = some v → u ≠ v →
          checksumValid (before ++ b :: (between ++ a :: after)) = false) := by
  obtain ⟨kind, hsize, hchecks⟩ := (checksumValid_iff cs).mp h
  constructor
  · rintro before c after v rfl hv b w hw hne
    have hc := counts_of_valueIn? hv
    have hb := counts_of_valueIn? hw
    rw [compact_append_cons hc] at hsize hchecks
    rw [← Bool.not_eq_true, checksumValid_iff, compact_append_cons hb]
    rintro ⟨other, hsize', hchecks'⟩
    -- The new character counts too, so the number keeps its length and with it its form.
    obtain rfl : other = kind := by
      apply size_injective
      rw [← hsize', ← hsize, List.length_append, List.length_append]
      rfl
    have hplace : (countedBefore before).length < other.size := by
      rw [← hsize, List.length_append, List.length_cons]
      omega
    have hsame := value?_eq_of_checks hplace hchecks hchecks'
    rw [← valueIn?_eq hsize, ← valueIn?_eq hsize, hv, hw] at hsame
    exact hne (Option.some.inj hsame).symm
  · rintro hten before a between b after u v rfl hu hv hne
    have ha := counts_of_valueIn? hu
    have hb := counts_of_valueIn? hv
    obtain rfl : kind = isbn10 := size_injective (hsize.symm.trans hten)
    rw [valueIn?_second ha hb hsize] at hv
    rw [valueIn?_eq (by rwa [compact_append_cons ha] at hsize)] at hu
    rw [compact_two ha hb] at hsize hchecks
    rw [← Bool.not_eq_true, checksumValid_iff, compact_two hb ha]
    rintro ⟨other, hsize', hchecks'⟩
    obtain rfl : other = isbn10 := by
      apply size_injective
      rw [← hsize', ← hsize]
      simp only [List.length_append, List.length_cons]
    have hsame := value?_eq_of_checks_swapped hsize hchecks hchecks'
    rw [hu, hv] at hsame
    exact hne (Option.some.inj hsame)

/-- A short number with hyphens, a space and an X. -/
def numberWithX : List Char := "0-9752298 0-X".toList

theorem checksumValid_detects_x :
    checksumValid numberWithX = true ∧
      (valueIn? "0-9752298 0-".toList 'X' [] = some 10 ∧
        valueIn? "0-9752298 0-".toList '3' [] = some 3 ∧
        checksumValid "0-9752298 0-3".toList = false) ∧
      (compact numberWithX).length = 10 ∧
      valueIn? "0-".toList '9' "752298 0-X".toList = some 9 ∧
      checksumValid "0-X752298 0-9".toList = false := by
  have hvalid : checksumValid numberWithX = true := by decide
  have hten : (compact numberWithX).length = 10 := by decide
  have hx : valueIn? "0-9752298 0-".toList 'X' [] = some 10 := by decide
  have hthree : valueIn? "0-9752298 0-".toList '3' [] = some 3 := by decide
  have hnine : valueIn? "0-".toList '9' "752298 0-X".toList = some 9 := by decide
  obtain ⟨hreplaced, hexchanged⟩ := checksumValid_detects numberWithX hvalid
  exact ⟨hvalid, ⟨hx, hthree, hreplaced _ _ _ _ rfl hx _ _ hthree (by decide)⟩, hten, hnine,
    hexchanged hten "0-".toList '9' "752298 0-".toList 'X' [] _ _ rfl hnine hx (by decide)⟩

end BibAudit.Isbn
