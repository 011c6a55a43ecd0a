/-
# BibAudit.Checks.Title — what a title should look like.

Characters outside printable ASCII often fail in typesetting.  Capitals are lost unless braces
protect them, which concerns abbreviations and proper names; braces around the whole title protect
every word, which is too much.  Two entries with the same readable title are likely the same work.

A title can be searched for by a link.  In the query part of a link, ASCII letters, digits and
`* - . _` stand as they are, a space becomes `+`, and every other byte of the UTF-8 form is written
as a percent sign and two hexadecimal digits.
-/
import BibAudit.Checks.Context
import BibAudit.Text.Basic
import BibAudit.Text.Class.Hidden
import BibAudit.Value.Unprotected

namespace BibAudit.Text

/-! ## Texts in the query part of a link -/

/-- A byte that stands for itself in a query. -/
def standsInQuery (b : UInt8) : Bool :=
  let c := Char.ofNat b.toNat
  c.isAlphanum || c == '*' || c == '-' || c == '.' || c == '_'

/-- One byte of a query. -/
def encodeQueryByte (b : UInt8) : List Char :=
  if standsInQuery b then [Char.ofNat b.toNat]
  else if b == 0x20 then ['+']
  else '%' :: hexUpper 2 b.toNat

/-- A text in query form. -/
def encodeQuery (s : String) : String :=
  String.ofList (s.toUTF8.toList.flatMap encodeQueryByte)

end BibAudit.Text

namespace BibAudit.Checks

/-! ## Characters -/

/-- A space or a printable ASCII character. -/
def isPlain (c : Char) : Bool :=
  0x20 ≤ c.toNat && c.toNat ≤ 0x7E

/-- A character as it is listed in a message, with its code point. -/
def listedChar (c : Char) : String :=
  String.ofList (['\''] ++ Text.showChar c ++ ['\'', ' ', '(', 'U', '+'] ++
    Text.hexUpper 4 c.toNat ++ [')'])

/-- Characters in the raw value of a field that are not plain. -/
def illegalCharsIn (e : Entry) (field : String) : List Complaint :=
  match e.field? field with
  | none => []
  | some value =>
    let illegal := distinctChars (value.toList.filter fun c => !isPlain c)
    if illegal.isEmpty then []
    else [e.complainAt .illegalChars field
      s!"Illegal characters in {field}: {commaList (illegal.map listedChar)}"]

/-- Characters in a title that are not plain. -/
def illegalChars (e : Entry) (_ : Context) : Findings :=
  .ok (illegalCharsIn e "title" ++ illegalCharsIn e "booktitle")

/-! ## Protection -/

/-- The abbreviation that some glyphs start with: a capital, and letters and digits after it among
which there is another capital. -/
def abbreviationAt : List Value.Glyph → Option (List Value.Glyph)
  | [] => none
  | g :: rest =>
    let more := rest.dropWhile fun h => h.char.isDigit || h.char.isLower
    if g.char.isUpper && more.head?.any (fun h => h.char.isUpper) then
      some (g :: rest.takeWhile fun h => h.char.isAlphanum)
    else none

/-- The abbreviations in some glyphs, after passing over `skip` glyphs of the last one. -/
def abbreviationsFrom : Nat → List Value.Glyph → List (List Value.Glyph)
  | _, [] => []
  | skip + 1, _ :: rest => abbreviationsFrom skip rest
  | 0, g :: rest =>
    match abbreviationAt (g :: rest) with
    | some found => found :: abbreviationsFrom (found.length - 1) rest
    | none => abbreviationsFrom 0 rest

/-- The first abbreviation of a token that has an unprotected character. -/
def unprotectedAbbreviation? (t : Value.Token) : Option String :=
  ((abbreviationsFrom 0 t).find? fun found => Value.leastDepth found == 0).map Value.Token.text

/-- The first unprotected abbreviation of a title. -/
def unquotedAbbreviations (e : Entry) (_ : Context) : Findings :=
  match (e.scanned? "title").bind fun s => s.tokens.findSome? unprotectedAbbreviation? with
  | none => .ok []
  | some found => .ok [e.complainAt .unquotedAbbreviations "title"
      s!"Unquoted abbreviation \"{found}\" in title, write \x7b{found}\x7d"]

/-- Names that lose their capital when braces do not protect them. -/
def properNames : List String :=
  ["Android", "Atmel", "Bluetooth", "Ethernet", "Fibonacci", "Fourier", "Galois", "Intel",
    "Internet", "Keccak", "Linux", "Micron", "STMicroelectronics"]

/-- Unprotected proper names in a title. -/
def unquotedNames (e : Entry) (_ : Context) : Findings :=
  match e.scanned? "title" with
  | none => .ok []
  | some s => .ok ((Value.findUnprotected s properNames).map fun u =>
      e.complainAt .unquotedNames "title"
        s!"Unquoted name \"{u.word}\" in title (in \"{u.token}\"), write \x7b{u.word}\x7d")

/-- Braces around a whole title. -/
def overquotedTitle (e : Entry) (_ : Context) : Findings :=
  match e.scanned? "title" with
  | none => .ok []
  | some s =>
    if s.isOverquoted then .ok [e.complainAt .overquotedTitle "title"
      ("Title is wrapped in an extra pair of braces, which disables case handling for " ++
        "every word; protect single words instead")]
    else .ok []

/-! ## Equal titles -/

/-- The title without markup that does not change it; none if nothing is left. -/
def readableTitle? (e : Entry) : Option String :=
  (e.text? "title").bind fun title =>
    let plain := Text.replaceAll "\\textnormal".toList [] (Text.replaceAll "\\enquote".toList []
      title.toList)
    let ws := Text.words (plain.map fun c => if c == '~' then ' ' else c)
    if ws.isEmpty then none else some (String.ofList ([' '].intercalate ws))

/-- The complaint about entries with the same title; the same key twice is another check's
business. -/
def sameTitle (title : String) : List Entry → List Complaint
  | [] => []
  | first :: rest =>
    if rest.all fun e => e.key == first.key then []
    else
      let others := rest.map fun e => s!"{e.key} ({e.location.text})"
      [(first.complainAt .identicalTitles "title"
        s!"Exact title match, possible duplicate of {commaList others}: \"{title}\"").referringTo
          (rest.map fun e => e.locationOf "title")]

/-- Different entries with the same title. -/
def identicalTitles (ctx : Context) : Findings :=
  let titled := ctx.entries.filterMap fun e => (readableTitle? e).map fun title => (title, e)
  .ok ((Groups.ofList titled).flatMap fun (title, es) => sameTitle title es)

/-! ## Searching for a title -/

/-- Up to five words of a title that are longer than three characters. -/
def searchTerms (e : Entry) : String :=
  let title := ((e.text? "title").getD "").toList.filter fun c => c != ':'
  String.ofList ([' '].intercalate (((Text.words title).filter fun w => 3 < w.length).take 5))

/-- The advice to search for a title, unless there is nothing to search for. -/
def searchAdvice (e : Entry) (before after : String) : String :=
  let terms := searchTerms e
  if terms.isEmpty then "" else s!". Search: {before}{Text.encodeQuery terms}{after}"

end BibAudit.Checks
