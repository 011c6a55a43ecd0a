/-
# BibAudit.Proofs.Json.RoundTrip — written JSON is read again.

Where a value is due, the tokens of a value put that value in its place, whatever is open around it.  So
the reader goes from what is open before a value to what is open after it, and a text that was written
from a value is that value.
-/
import BibAudit.Json.Reader
import BibAudit.Proofs.Json.Written

namespace BibAudit.Json

variable {stage stage' : Stage} {t : Token} {ts us : List Token} {frames : List Frame}

/-! ## Runs of tokens -/

theorem Stage.run_cons (h : stage.step t = some stage') :
    stage.run (t :: ts) = stage'.run ts := by
  rw [Stage.run, h, Option.bind_some]

theorem Stage.run_single : stage.run [t] = stage.step t := by
  rw [Stage.run]
  cases stage.step t <;> rfl

theorem Stage.run_append (stage : Stage) (ts us : List Token) :
    stage.run (ts ++ us) = (stage.run ts).bind fun stage => stage.run us := by
  induction ts generalizing stage with
  | nil => rfl
  | cons t ts ih =>
      rw [List.cons_append, Stage.run, Stage.run, Option.bind_assoc]
      exact congrArg _ (funext ih)

/-! ## Values -/

/-- Where a value is due, the tokens of the value put it in its place. -/
def Builds (v : Json) : Prop :=
  ∀ frames, Stage.awaits frames = true → (Stage.reading frames).run (tokensOf v) = Stage.put v frames

theorem Builds.run_append {v : Json} (h : Builds v) (hframes : Stage.awaits frames = true)
    (hput : Stage.put v frames = some stage) :
    (Stage.reading frames).run (tokensOf v ++ ts) = stage.run ts := by
  rw [Stage.run_append, h frames hframes, hput, Option.bind_some]

/-- After its name, a member is a colon and a value. -/
theorem Builds.run_member {v : Json} (h : Builds v) (members : List (String × Json))
    (name : String) :
    (Stage.reading (.objectName members name :: frames)).run (.colon :: (tokensOf v ++ ts)) =
      (Stage.reading (.objectHas ((name, v) :: members) :: frames)).run ts := by
  have hcolon : (Stage.reading (.objectName members name :: frames)).step .colon =
      some (.reading (.objectColon members name :: frames)) := rfl
  rw [Stage.run_cons hcolon, h.run_append rfl rfl]

/-- After what has been read of an array, further items and the closing bracket complete it; the
induction is on the items left. -/
theorem run_items {vs : List Json} (hvs : ∀ v ∈ vs, Builds v) (items : List Json) :
    (Stage.reading (.arrayHas items :: frames)).run (itemTokens vs ++ [.closeArray]) =
      Stage.put (.arr (items.reverse ++ vs)) frames := by
  induction vs generalizing items with
  | nil =>
      rw [itemTokens, List.nil_append, List.append_nil, Stage.run_single]
      rfl
  | cons v vs ih =>
      obtain ⟨hv, hvs⟩ := List.forall_mem_cons.mp hvs
      have hcomma : (Stage.reading (.arrayHas items :: frames)).step .comma =
          some (.reading (.arrayNext items :: frames)) := rfl
      simp only [itemTokens, List.cons_append, List.append_assoc]
      rw [Stage.run_cons hcomma, hv.run_append rfl rfl, ih hvs, List.reverse_cons, List.append_assoc,
        List.singleton_append]

/-- After what has been read of an object, further members and the closing brace complete it; the
induction is on the members left. -/
theorem run_members {ms : List (String × Json)} (hms : ∀ m ∈ ms, Builds m.2)
    (members : List (String × Json)) :
    (Stage.reading (.objectHas members :: frames)).run (memberTokens ms ++ [.closeObject]) =
      Stage.put (.obj (members.reverse ++ ms)) frames := by
  induction ms generalizing members with
  | nil =>
      rw [memberTokens, List.nil_append, List.append_nil, Stage.run_single]
      rfl
  | cons m ms ih =>
      obtain ⟨name, v⟩ := m
      obtain ⟨hv, hms⟩ := List.forall_mem_cons.mp hms
      have hcomma : (Stage.reading (.objectHas members :: frames)).step .comma =
          some (.reading (.objectNext members :: frames)) := rfl
      have hname : (Stage.reading (.objectNext members :: frames)).step (.str name) =
          some (.reading (.objectName members name :: frames)) := rfl
      simp only [memberTokens, List.cons_append, List.append_assoc]
      rw [Stage.run_cons hcomma, Stage.run_cons hname, hv.run_member, ih hms, List.reverse_cons,
        List.append_assoc, List.singleton_append]

theorem builds_token {v : Json} (ht : tokensOf v = [t])
    (hstep : ∀ frames, Stage.awaits frames = true →
      (Stage.reading frames).step t = Stage.put v frames) : Builds v := by
  intro frames hframes
  rw [ht, Stage.run_single, hstep frames hframes]

theorem builds_arr {items : List Json} (h : ∀ v ∈ items, Builds v) : Builds (.arr items) := by
  intro frames hframes
  have hopen : (Stage.reading frames).step .openArray = some (.reading (.arrayStart :: frames)) := by
    simp [Stage.step, hframes]
  cases items with
  | nil =>
      rw [tokensOf, Stage.run_cons hopen, Stage.run_single]
      rfl
  | cons v vs =>
      obtain ⟨hv, hvs⟩ := List.forall_mem_cons.mp h
      simp only [tokensOf, List.cons_append, List.append_assoc]
      rw [Stage.run_cons hopen, hv.run_append rfl rfl, run_items hvs]
      rfl

theorem builds_obj {members : List (String × Json)} (h : ∀ m ∈ members, Builds m.2) :
    Builds (.obj members) := by
  intro frames hframes
  have hopen : (Stage.reading frames).step .openObject = some (.reading (.objectStart :: frames)) := by
    simp [Stage.step, hframes]
  cases members with
  | nil =>
      rw [tokensOf, Stage.run_cons hopen, Stage.run_single]
      rfl
  | cons m ms =>
      obtain ⟨name, v⟩ := m
      obtain ⟨hv, hms⟩ := List.forall_mem_cons.mp h
      have hname : (Stage.reading (.objectStart :: frames)).step (.str name) =
          some (.reading (.objectName [] name :: frames)) := rfl
      simp only [tokensOf, List.cons_append, List.append_assoc]
      rw [Stage.run_cons hopen, Stage.run_cons hname, hv.run_member, run_members hms]
      rfl

/-- A string is the name of a member only where no value is due. -/
theorem step_str (s : String) (h : Stage.awaits frames = true) :
    (Stage.reading frames).step (.str s) = Stage.put (.str s) frames := by
  cases frames with
  | nil => rfl
  | cons frame frames =>
      cases frame with
      | arrayStart | arrayNext | objectColon => rfl
      | _ => cases h

/-- The tokens of a value are read as the value; the induction is on the value. -/
theorem builds_of_legible {v : Json} (h : Legible v) : Builds v := by
  induction h with
  | null => exact builds_token rfl fun _ _ => rfl
  | bool b => exact builds_token rfl fun _ _ => rfl
  | int n => exact builds_token rfl fun _ _ => rfl
  | real h => exact builds_token rfl fun _ _ => rfl
  | str s => exact builds_token rfl fun _ hframes => step_str s hframes
  | arr _ ih => exact builds_arr ih
  | obj _ ih => exact builds_obj ih

/-- The indented form of a value, line break after it included, is read as the value. -/
theorem parse?_pretty {v : Json} (h : Legible v) : parse? (v.pretty ++ "\n") = some v := by
  have htokens : tokens? (v.pretty ++ "\n").toList = some (tokensOf v) := by
    have hbreak : "\n".toList = ['\n'] := rfl
    have hend : tokensFrom .between ['\n'] = some [] := rfl
    rw [pretty, String.toList_append, String.toList_ofList, hbreak, tokens?,
      lexes_of_legible h 0 _ (endsWord_cons rfl), hend]
    simp [before]
  rw [parse?, htokens, Option.bind_some, ofTokens?, builds_of_legible h [] rfl]
  rfl

end BibAudit.Json
