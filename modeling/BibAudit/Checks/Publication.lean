/-
# BibAudit.Checks.Publication — month, book number and the fields of a type.

A month is a bare abbreviation, so that a style can put it into its own language.  A book number
must be valid, and is better given in its long form.  Every entry type has fields that are expected.
-/
import BibAudit.Checks.Context

namespace BibAudit.Checks

/-! ## Month -/

/-- The abbreviations of months. -/
def months : List String :=
  ["jan", "feb", "mar", "apr", "may", "jun", "jul", "aug", "sep", "oct", "nov", "dec"]

/-- What is wrong with a month; none if it is a bare abbreviation. -/
def monthFault? (s : Value.Scanned) : Option String :=
  match s.tokens with
  | [token] =>
    let month := Value.Token.text token
    if !months.contains month then
      some s!"Unrecognized month \"{month}\", expected one of jan..dec"
    else if s.delimiter != .bare || 0 < Value.Token.depth token then
      some s!"Month was quoted when unquoted expected: month = {month}"
    else none
  | _ =>
    some s!"Month has unexpected multipart value \"{s.plainText}\", expected one of jan..dec"

/-- A month that is no bare abbreviation. -/
def misformattedMonth (e : Entry) (_ : Context) : Findings :=
  .ok (((e.scanned? "month").bind monthFault?).toList.map
    (e.complainAt .misformattedMonth "month"))

/-! ## Book number -/

/-- A book number that is not valid, or is valid in its short form. -/
def isbn (e : Entry) (_ : Context) : Findings :=
  match e.text? "isbn" with
  | none => .ok []
  | some value =>
    let problems := Isbn.validate value.toList
    if problems.isEmpty && Isbn.kindOf? value.toList == some .isbn10 then
      match Isbn.toIsbn13 value.toList with
      | .error err => .error (.isbn err)
      | .ok long => .ok [e.complainAt .isbn "isbn"
          s!"ISBN-10 {value} should be given as ISBN-13: {long}"]
    else
      .ok (problems.map fun p => e.complainAt .isbn "isbn" s!"{p.message} (isbn = {value})")

/-! ## Expected fields -/

/-- Fields that every entry is expected to have. -/
def alwaysExpected : List String := ["title", "author", "year"]

/-- Further fields expected of a type; none for an unknown type. -/
def expectedOf? (kind : String) : Option (List String) :=
  if ["inproceedings", "incollection"].contains kind then some ["booktitle", "publisher", "doi"]
  else if kind == "techreport" then some ["number", "institution"]
  else if kind == "book" then some ["publisher", "isbn"]
  else if kind == "article" then some ["journal", "pages"]
  else if ["manual", "misc", "phdthesis"].contains kind then some []
  else none

/-- Expected fields that are not there, or an unknown type. -/
def presentFields (e : Entry) (_ : Context) : Findings :=
  match expectedOf? e.kind with
  | none => .ok [e.complain .presentFields s!"Unknown entry type \"{e.kind}\""]
  | some specific =>
    let missing := (alwaysExpected ++ specific).filter fun f => !e.hasField f
    if missing.isEmpty then .ok []
    else .ok [e.complain .presentFields
      s!"Missing field(s) for @{e.kind}: {commaList missing}"]

end BibAudit.Checks
