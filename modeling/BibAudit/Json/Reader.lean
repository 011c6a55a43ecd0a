/-
# BibAudit.Json.Reader — from tokens to a value.

The reader keeps the arrays and objects that are open, innermost first, each with what it holds so
far and with what may come next.  One value must remain when all are closed, and nothing after it.
-/
import BibAudit.Json.Token

namespace BibAudit.Json

/-- An open array or object, its parts in reverse. -/
inductive Frame
  /-- An array after its opening bracket, where it may close at once. -/
  | arrayStart
  /-- An array after a comma. -/
  | arrayNext (items : List Json)
  /-- An array after an item. -/
  | arrayHas (items : List Json)
  /-- An object after its opening brace, where it may close at once. -/
  | objectStart
  /-- An object after a comma. -/
  | objectNext (members : List (String × Json))
  /-- An object after a member name. -/
  | objectName (members : List (String × Json)) (name : String)
  /-- An object after the colon of a member. -/
  | objectColon (members : List (String × Json)) (name : String)
  /-- An object after a member. -/
  | objectHas (members : List (String × Json))
deriving Repr

/-- What has been read: nothing yet or open frames, or the whole value. -/
inductive Stage
  | reading (frames : List Frame)
  | done (value : Json)
deriving Repr

/-- Put a complete value where one is due. -/
def Stage.put (v : Json) : List Frame → Option Stage
  | [] => some (.done v)
  | .arrayStart :: rest => some (.reading (.arrayHas [v] :: rest))
  | .arrayNext items :: rest => some (.reading (.arrayHas (v :: items) :: rest))
  | .objectColon members name :: rest => some (.reading (.objectHas ((name, v) :: members) :: rest))
  | _ => none

/-- A value is due. -/
def Stage.awaits : List Frame → Bool
  | [] | .arrayStart :: _ | .arrayNext _ :: _ | .objectColon .. :: _ => true
  | _ => false

/-- Take one token. -/
def Stage.step : Stage → Token → Option Stage
  | .done _, _ => none
  | .reading frames, t =>
    match t, frames with
    | .null, _ => Stage.put .null frames
    | .bool b, _ => Stage.put (.bool b) frames
    | .int n, _ => Stage.put (.int n) frames
    | .real text, _ => Stage.put (.real text) frames
    | .str name, .objectStart :: rest => some (.reading (.objectName [] name :: rest))
    | .str name, .objectNext members :: rest => some (.reading (.objectName members name :: rest))
    | .str s, _ => Stage.put (.str s) frames
    | .colon, .objectName members name :: rest =>
      some (.reading (.objectColon members name :: rest))
    | .comma, .arrayHas items :: rest => some (.reading (.arrayNext items :: rest))
    | .comma, .objectHas members :: rest => some (.reading (.objectNext members :: rest))
    | .openArray, _ =>
      if Stage.awaits frames then some (.reading (.arrayStart :: frames)) else none
    | .openObject, _ =>
      if Stage.awaits frames then some (.reading (.objectStart :: frames)) else none
    | .closeArray, .arrayStart :: rest => Stage.put (.arr []) rest
    | .closeArray, .arrayHas items :: rest => Stage.put (.arr items.reverse) rest
    | .closeObject, .objectStart :: rest => Stage.put (.obj []) rest
    | .closeObject, .objectHas members :: rest => Stage.put (.obj members.reverse) rest
    | _, _ => none

/-- Take tokens one after the other. -/
def Stage.run : Stage → List Token → Option Stage
  | s, [] => some s
  | s, t :: rest => (s.step t).bind fun s => s.run rest

/-- The value that a sequence of tokens makes up. -/
def ofTokens? (ts : List Token) : Option Json :=
  match (Stage.reading []).run ts with
  | some (.done v) => some v
  | _ => none

/-- The value that a text denotes. -/
def parse? (s : String) : Option Json :=
  (tokens? s.toList).bind ofTokens?

end BibAudit.Json
