/-
# BibAudit.Proofs.Json.Written — the tokens of written JSON.

The indented form of a value is taken apart into the tokens that the value is made of: its line breaks
and indentation are blanks, every string comes back from its escapes, and every word ends where
punctuation or a blank begins.  Numbers with a fraction are kept by their text, which therefore has to
be a number; nothing else is asked of the value.
-/
import BibAudit.Json.Printer
import BibAudit.Json.Token
import BibAudit.Proofs.Text.Digits
import BibAudit.Proofs.Text.Trim
import Mathlib.Data.List.TakeWhile

namespace BibAudit.Json

variable {c : Char} {cs rest : List Char} {t : Token} {ts us : List Token} {mode mode' : Mode}

/-! ## The tokens of a value -/

mutual

/-- The tokens that a value is made of. -/
def tokensOf : Json → List Token
  | null => [.null]
  | bool b => [.bool b]
  | int n => [.int n]
  | real text => [.real text]
  | str s => [.str s]
  | arr [] => [.openArray, .closeArray]
  | arr (v :: vs) => .openArray :: tokensOf v ++ itemTokens vs ++ [.closeArray]
  | obj [] => [.openObject, .closeObject]
  | obj ((name, v) :: ms) =>
    .openObject :: .str name :: .colon :: tokensOf v ++ memberTokens ms ++ [.closeObject]

/-- Further items, each after a comma. -/
def itemTokens : List Json → List Token
  | [] => []
  | v :: vs => .comma :: tokensOf v ++ itemTokens vs

/-- Further members, each after a comma. -/
def memberTokens : List (String × Json) → List Token
  | [] => []
  | (name, v) :: ms => .comma :: .str name :: .colon :: tokensOf v ++ memberTokens ms

end

/-- The characters are those of a word, and the word is the token. -/
structure IsWord (cs : List Char) (t : Token) : Prop where
  ne_nil : cs ≠ []
  continues : ∀ c ∈ cs, continuesWord c = true
  word : word? cs = some t

/-- Every number that is kept by its text is written as one. -/
inductive Legible : Json → Prop
  | null : Legible .null
  | bool (b : Bool) : Legible (.bool b)
  | int (n : Int) : Legible (.int n)
  | real {text : String} (h : IsWord text.toList (.real text)) : Legible (.real text)
  | str (s : String) : Legible (.str s)
  | arr {items : List Json} (h : ∀ v ∈ items, Legible v) : Legible (.arr items)
  | obj {members : List (String × Json)} (h : ∀ m ∈ members, Legible m.2) : Legible (.obj members)

/-! ## One character -/

/-- Tokens before those of the rest of a text. -/
def before (ts : List Token) (more : Option (List Token)) : Option (List Token) :=
  more.map (ts ++ ·)

@[simp] theorem before_nil (more : Option (List Token)) : before [] more = more := by
  cases more <;> rfl

@[simp] theorem before_before (ts us : List Token) (more : Option (List Token)) :
    before ts (before us more) = before (ts ++ us) more := by
  cases more <;> simp [before]

theorem tokensFrom_cons (h : stepToken mode c = some (ts, mode')) :
    tokensFrom mode (c :: rest) = before ts (tokensFrom mode' rest) := by
  rw [tokensFrom, h]
  rfl

theorem tokensFrom_punctuation (h : punctuation? c = some t) :
    tokensFrom .between (c :: rest) = before [t] (tokensFrom .between rest) := by
  refine tokensFrom_cons ?_
  rw [stepToken, startToken, h]

theorem tokensFrom_blank (hp : punctuation? c = none) (hb : isBlank c = true) :
    tokensFrom .between (c :: rest) = tokensFrom .between rest := by
  have hstep : stepToken .between c = some ([], .between) := by
    rw [stepToken, startToken, hp]
    simp only [hb, if_true]
  rw [tokensFrom_cons hstep, before_nil]

theorem tokensFrom_spaces (n : Nat) :
    tokensFrom .between (List.replicate n ' ' ++ rest) = tokensFrom .between rest := by
  induction n with
  | zero => rfl
  | succ n ih => rw [List.replicate_succ, List.cons_append, tokensFrom_blank rfl rfl, ih]

theorem tokensFrom_newline (depth : Nat) :
    tokensFrom .between (newline depth ++ rest) = tokensFrom .between rest := by
  rw [newline, List.cons_append, tokensFrom_blank rfl rfl, tokensFrom_spaces]

/-! ## Strings -/

theorem hexDigit?_digitChar : ∀ n < 16, Text.hexDigit? (Nat.digitChar n) = some n := by
  decide

/-- A control character comes back from the four digits of its code. -/
theorem tokensFrom_unitEscape (seen : List Char) (h : c.toNat < 0x20) :
    tokensFrom (.string seen) (unitEscape c.toNat ++ rest) = tokensFrom (.string (c :: seen)) rest := by
  have hescape : stepToken (.string seen) '\\' = some ([], .escape seen) := rfl
  have hunit : stepToken (.escape seen) 'u' = some ([], .unit seen none 0 0) := rfl
  have hzero : stepToken (.unit seen none 0 0) '0' = some ([], .unit seen none 1 0) := rfl
  have hnext : stepToken (.unit seen none 1 0) '0' = some ([], .unit seen none 2 0) := rfl
  have hhigh : stepToken (.unit seen none 2 0) (Nat.digitChar (c.toNat / 16)) =
      some ([], .unit seen none 3 (c.toNat / 16)) := by
    rw [stepToken, hexDigit?_digitChar _ (by omega)]
    simp
  have hlow : stepToken (.unit seen none 3 (c.toNat / 16)) (Nat.digitChar (c.toNat % 16)) =
      some ([], .string (c :: seen)) := by
    have hvalue : 16 * (c.toNat / 16) + c.toNat % 16 = c.toNat := Nat.div_add_mod c.toNat 16
    have hafter : afterUnit seen none c.toNat = some (.string (c :: seen)) := by
      rw [afterUnit, if_neg (by simp; omega), if_neg (by simp; omega), Char.ofNat_toNat]
    rw [stepToken, hexDigit?_digitChar _ (by omega), Option.bind_some, if_pos rfl, hvalue, hafter]
    rfl
  simp only [unitEscape, List.cons_append, List.nil_append, tokensFrom_cons hescape,
    tokensFrom_cons hunit, tokensFrom_cons hzero, tokensFrom_cons hnext, tokensFrom_cons hhigh,
    tokensFrom_cons hlow, before_nil]

/-- A character comes back from its one-letter escape. -/
theorem tokensFrom_escaped (seen : List Char) {d : Char} (h : escaped? d = some c) (hu : d ≠ 'u') :
    tokensFrom (.string seen) ('\\' :: d :: rest) = tokensFrom (.string (c :: seen)) rest := by
  have hescape : stepToken (.string seen) '\\' = some ([], .escape seen) := rfl
  have hletter : stepToken (.escape seen) d = some ([], .string (c :: seen)) := by
    simp [stepToken, hu, h]
  rw [tokensFrom_cons hescape, tokensFrom_cons hletter, before_nil, before_nil]

/-- A character of a string comes back from how it is written. -/
theorem tokensFrom_escapeChar (seen : List Char) (c : Char) :
    tokensFrom (.string seen) (escapeChar c ++ rest) = tokensFrom (.string (c :: seen)) rest := by
  have hcode : ∀ {n : Nat} {d : Char}, c.toNat = n → escaped? d = some (Char.ofNat n) → d ≠ 'u' →
      tokensFrom (.string seen) (['\\', d] ++ rest) = tokensFrom (.string (c :: seen)) rest := by
    intro n d hn hd hu
    rw [← hn, Char.ofNat_toNat] at hd
    exact tokensFrom_escaped seen hd hu
  simp only [escapeChar, beq_iff_eq]
  split
  · next h =>
      subst h
      exact tokensFrom_escaped seen rfl (by decide)
  split
  · next h =>
      subst h
      exact tokensFrom_escaped seen rfl (by decide)
  split
  · next h => exact hcode h rfl (by decide)
  split
  · next h => exact hcode h rfl (by decide)
  split
  · next h => exact hcode h rfl (by decide)
  split
  · next h => exact hcode h rfl (by decide)
  split
  · next h => exact hcode h rfl (by decide)
  split
  · next h => exact tokensFrom_unitEscape seen h
  · next hquote hslash _ _ _ _ _ hcontrol =>
      have hplain : stepToken (.string seen) c = some ([], .string (c :: seen)) := by
        simp [stepToken, hquote, hslash, hcontrol]
      rw [List.singleton_append, tokensFrom_cons hplain, before_nil]

/-- The characters of a string, in any mode of what has been seen of it; the induction is on those to
come. -/
theorem tokensFrom_string (seen : List Char) :
    tokensFrom (.string seen) (cs.flatMap escapeChar ++ '"' :: rest) =
      before [.str (String.ofList (seen.reverse ++ cs))] (tokensFrom .between rest) := by
  induction cs generalizing seen with
  | nil =>
      rw [List.flatMap_nil, List.nil_append, List.append_nil]
      exact tokensFrom_cons rfl
  | cons c cs ih =>
      rw [List.flatMap_cons, List.append_assoc, tokensFrom_escapeChar, ih, List.reverse_cons,
        List.append_assoc, List.singleton_append]

theorem tokensFrom_quoted (s : String) :
    tokensFrom .between (quoted s ++ rest) = before [.str s] (tokensFrom .between rest) := by
  have hopen : stepToken .between '"' = some ([], .string []) := rfl
  rw [quoted, List.cons_append, List.cons_append, List.append_assoc, tokensFrom_cons hopen,
    before_nil, List.singleton_append, tokensFrom_string, List.reverse_nil, List.nil_append, String.ofList_toList]

/-! ## Words and numbers -/

/-- No word goes on at the beginning of the text. -/
def EndsWord (cs : List Char) : Prop :=
  ∀ c ∈ cs.head?, continuesWord c = false

theorem endsWord_cons (h : continuesWord c = false) : EndsWord (c :: cs) := by
  intro d hd
  obtain rfl : c = d := Option.some.inj hd
  exact h

theorem startToken_of_ends (h : continuesWord c = false) (seen : List Char) :
    stepToken (.word seen) c = (word? seen.reverse).map fun t =>
      (t :: (startToken c).1, (startToken c).2) := by
  simp [stepToken, h]

theorem tokensFrom_word_on (seen : List Char) (hcs : ∀ c ∈ cs, continuesWord c = true)
    (ht : word? (seen.reverse ++ cs) = some t) (hrest : EndsWord rest) :
    tokensFrom (.word seen) (cs ++ rest) = before [t] (tokensFrom .between rest) := by
  induction cs generalizing seen with
  | nil =>
      rw [List.append_nil] at ht
      cases rest with
      | nil =>
          have hend : tokensFrom (.word seen) [] = (word? seen.reverse).map fun t => [t] := rfl
          rw [List.nil_append, hend, ht]
          rfl
      | cons c rest =>
          have hstart : stepToken .between c = some (startToken c) := rfl
          have hstep := startToken_of_ends (hrest c rfl) seen
          rw [ht] at hstep
          rw [List.nil_append, tokensFrom_cons hstep, tokensFrom_cons hstart, before_before]
          rfl
  | cons c cs ih =>
      have hstep : stepToken (.word seen) c = some ([], .word (c :: seen)) := by
        rw [stepToken, if_pos (hcs c List.mem_cons_self)]
      rw [List.cons_append, tokensFrom_cons hstep, before_nil]
      refine ih (c :: seen) (fun d hd => hcs d (List.mem_cons_of_mem _ hd)) ?_
      rw [List.reverse_cons, List.append_assoc, List.singleton_append]
      exact ht

theorem startToken_of_continues (h : continuesWord c = true) : startToken c = ([], .word [c]) := by
  simp only [continuesWord, Bool.and_eq_true, Option.isNone_iff_eq_none, Bool.not_eq_true',
    bne_iff_ne] at h
  obtain ⟨⟨hp, hb⟩, hq⟩ := h
  simp [startToken, hp, hb, hq]

/-- A word ends where the next token or a blank begins. -/
theorem tokensFrom_word (h : IsWord cs t) (hrest : EndsWord rest) :
    tokensFrom .between (cs ++ rest) = before [t] (tokensFrom .between rest) := by
  obtain ⟨c, cs, rfl⟩ := List.exists_cons_of_ne_nil h.ne_nil
  obtain ⟨hc, hcs⟩ := List.forall_mem_cons.mp h.continues
  have hstart : stepToken .between c = some ([], .word [c]) :=
    congrArg some (startToken_of_continues hc)
  rw [List.cons_append, tokensFrom_cons hstart, before_nil]
  exact tokensFrom_word_on [c] hcs h.word hrest

theorem continuesWord_of_isDigit (h : c.isDigit = true) : continuesWord c = true := by
  have hc : c.toNat < 128 := Text.toNat_lt_of_isAlphanum (by simp [Char.isAlphanum, h])
  have hdigits : c.isDigit = true → continuesWord c = true :=
    Text.forall_ascii (p := fun c => c.isDigit = true → continuesWord c = true) (by decide) hc
  exact hdigits h

theorem isWhole_toString (n : Nat) : isWhole (toString n).toList = true := by
  rw [isWhole, Text.isNumeral_toString, Bool.true_and, Bool.or_eq_true]
  rcases Nat.eq_zero_or_pos n with rfl | hpos
  · exact .inr rfl
  · exact .inl (bne_iff_ne.mpr (Text.head_toString hpos))

theorem digits_of_isWhole (h : isWhole cs = true) : cs ≠ [] ∧ ∀ c ∈ cs, c.isDigit = true := by
  rw [isWhole, Text.isNumeral, Bool.and_eq_true, Bool.and_eq_true, List.all_eq_true] at h
  exact ⟨by simpa using h.1.1, h.1.2⟩

/-- Whole digits are read as their value, and as its opposite after a minus sign. -/
theorem magnitude?_of_isWhole (h : isWhole cs = true) :
    magnitude? false cs = some (.int (Text.decimalValue cs)) ∧
      (Text.decimalValue cs ≠ 0 → magnitude? true cs = some (.int (-Text.decimalValue cs))) := by
  have hwhole : cs.takeWhile Char.isDigit = cs :=
    List.takeWhile_eq_self_iff.mpr (digits_of_isWhole h).2
  have hrest : cs.dropWhile Char.isDigit = [] :=
    List.dropWhile_eq_nil_iff.mpr (digits_of_isWhole h).2
  refine ⟨?_, fun hne => ?_⟩
  · simp [magnitude?, hwhole, hrest, h]
  · simp [magnitude?, hwhole, hrest, h, hne]

theorem word?_of_isWhole (h : isWhole cs = true) : word? cs = some (.int (Text.decimalValue cs)) := by
  obtain ⟨hne, hdigits⟩ := digits_of_isWhole h
  obtain ⟨c, cs, rfl⟩ := List.exists_cons_of_ne_nil hne
  have hword : ∀ (d : Char) (ds : List Char), d.isDigit = false → c :: cs ≠ d :: ds := by
    intro d ds hd heq
    have hc := hdigits c List.mem_cons_self
    rw [(List.cons.inj heq).1, hd] at hc
    cases hc
  rw [word?, if_neg (by simpa using hword 'n' _ rfl), if_neg (by simpa using hword 't' _ rfl),
    if_neg (by simpa using hword 'f' _ rfl), (magnitude?_of_isWhole h).1]
  exact fun ds => hword '-' ds rfl

theorem word?_minus : word? ('-' :: cs) = magnitude? true cs := by
  rw [word?, if_neg (by simp), if_neg (by simp), if_neg (by simp)]

/-- A printed integer is a word, and is read as that integer. -/
theorem isWord_toString (n : Int) : IsWord (toString n).toList (.int n) := by
  have hnat : ∀ m : Nat, ∀ c ∈ (toString m).toList, continuesWord c = true := fun m c hc =>
    continuesWord_of_isDigit ((digits_of_isWhole (isWhole_toString m)).2 c hc)
  cases n with
  | ofNat m =>
      show IsWord (toString m).toList _
      refine ⟨(digits_of_isWhole (isWhole_toString m)).1, hnat m, ?_⟩
      rw [word?_of_isWhole (isWhole_toString m), Text.decimalValue_toString]
      rfl
  | negSucc m =>
      have hminus : (toString (Int.negSucc m)).toList = '-' :: (toString (m + 1)).toList :=
        String.toList_append
      have hread := (magnitude?_of_isWhole (isWhole_toString (m + 1))).2
      rw [Text.decimalValue_toString] at hread
      rw [hminus]
      refine ⟨List.cons_ne_nil _ _, ?_, ?_⟩
      · exact List.forall_mem_cons.mpr ⟨rfl, hnat (m + 1)⟩
      · rw [word?_minus, hread (Nat.succ_ne_zero m)]
        rfl

/-! ## Values -/

/-- The indented form of a value, at any depth and before any text that ends a word, is taken apart into
the tokens of the value. -/
def Lexes (v : Json) : Prop :=
  ∀ depth rest, EndsWord rest →
    tokensFrom .between (prettyAt depth v ++ rest) = before (tokensOf v) (tokensFrom .between rest)

theorem endsWord_newline (depth : Nat) : EndsWord (newline depth ++ rest) :=
  endsWord_cons rfl

theorem endsWord_items (depth : Nat) (vs : List Json) (h : EndsWord rest) :
    EndsWord (prettyItems depth vs ++ rest) := by
  cases vs with
  | nil => exact h
  | cons v vs => exact endsWord_cons rfl

theorem endsWord_members (depth : Nat) (ms : List (String × Json)) (h : EndsWord rest) :
    EndsWord (prettyMembers depth ms ++ rest) := by
  cases ms with
  | nil => exact h
  | cons m ms => exact endsWord_cons rfl

theorem tokensFrom_items {vs : List Json} (hvs : ∀ v ∈ vs, Lexes v) (depth : Nat)
    (h : EndsWord rest) :
    tokensFrom .between (prettyItems depth vs ++ rest) =
      before (itemTokens vs) (tokensFrom .between rest) := by
  induction vs with
  | nil => rw [itemTokens, before_nil]; rfl
  | cons v vs ih =>
      obtain ⟨hv, hvs⟩ := List.forall_mem_cons.mp hvs
      simp only [prettyItems, itemTokens, List.cons_append, List.append_assoc]
      rw [tokensFrom_punctuation rfl, tokensFrom_newline,
        hv depth _ (endsWord_items depth vs h), ih hvs, before_before, before_before]
      rfl

theorem tokensFrom_members {ms : List (String × Json)} (hms : ∀ m ∈ ms, Lexes m.2) (depth : Nat)
    (h : EndsWord rest) :
    tokensFrom .between (prettyMembers depth ms ++ rest) =
      before (memberTokens ms) (tokensFrom .between rest) := by
  induction ms with
  | nil => rw [memberTokens, before_nil]; rfl
  | cons m ms ih =>
      obtain ⟨name, v⟩ := m
      obtain ⟨hv, hms⟩ := List.forall_mem_cons.mp hms
      simp only [prettyMembers, memberTokens, List.cons_append, List.append_assoc, List.nil_append]
      rw [tokensFrom_punctuation rfl, tokensFrom_newline, tokensFrom_quoted,
        tokensFrom_punctuation rfl, tokensFrom_blank rfl rfl,
        hv depth _ (endsWord_members depth ms h), ih hms]
      simp only [before_before]
      rfl

/-- A word stands for itself at every depth. -/
theorem lexes_word {v : Json} (h : IsWord cs t) (hv : ∀ depth, prettyAt depth v = cs)
    (ht : tokensOf v = [t]) : Lexes v := by
  intro depth rest hrest
  rw [hv, ht]
  exact tokensFrom_word h hrest

theorem lexes_arr {items : List Json} (h : ∀ v ∈ items, Lexes v) : Lexes (.arr items) := by
  intro depth rest hrest
  cases items with
  | nil =>
      simp only [prettyAt, tokensOf, List.cons_append, List.nil_append]
      rw [tokensFrom_punctuation rfl, tokensFrom_punctuation rfl, before_before]
      rfl
  | cons v vs =>
      obtain ⟨hv, hvs⟩ := List.forall_mem_cons.mp h
      simp only [prettyAt, tokensOf, List.cons_append, List.append_assoc, List.nil_append]
      rw [tokensFrom_punctuation rfl, tokensFrom_newline,
        hv _ _ (endsWord_items _ vs (endsWord_newline depth)),
        tokensFrom_items hvs _ (endsWord_newline depth), tokensFrom_newline,
        tokensFrom_punctuation rfl]
      simp only [before_before]
      rfl

theorem lexes_obj {members : List (String × Json)} (h : ∀ m ∈ members, Lexes m.2) :
    Lexes (.obj members) := by
  intro depth rest hrest
  cases members with
  | nil =>
      simp only [prettyAt, tokensOf, List.cons_append, List.nil_append]
      rw [tokensFrom_punctuation rfl, tokensFrom_punctuation rfl, before_before]
      rfl
  | cons m ms =>
      obtain ⟨name, v⟩ := m
      obtain ⟨hv, hms⟩ := List.forall_mem_cons.mp h
      simp only [prettyAt, tokensOf, List.cons_append, List.append_assoc, List.nil_append]
      rw [tokensFrom_punctuation rfl, tokensFrom_newline, tokensFrom_quoted,
        tokensFrom_punctuation rfl, tokensFrom_blank rfl rfl,
        hv _ _ (endsWord_members _ ms (endsWord_newline depth)),
        tokensFrom_members hms _ (endsWord_newline depth), tokensFrom_newline,
        tokensFrom_punctuation rfl]
      simp only [before_before]
      rfl

/-- The written form of a value is taken apart into its tokens; the induction is on the value. -/
theorem lexes_of_legible {v : Json} (h : Legible v) : Lexes v := by
  induction h with
  | null => exact lexes_word ⟨by decide, List.all_eq_true.mp rfl, rfl⟩ (fun _ => rfl) rfl
  | bool b =>
      cases b with
      | true => exact lexes_word ⟨by decide, List.all_eq_true.mp rfl, rfl⟩ (fun _ => rfl) rfl
      | false => exact lexes_word ⟨by decide, List.all_eq_true.mp rfl, rfl⟩ (fun _ => rfl) rfl
  | int n => exact lexes_word (isWord_toString n) (fun _ => rfl) rfl
  | real h => exact lexes_word h (fun _ => rfl) rfl
  | str s =>
      intro depth rest _
      exact tokensFrom_quoted s
  | arr _ ih => exact lexes_arr ih
  | obj _ ih => exact lexes_obj ih

end BibAudit.Json
