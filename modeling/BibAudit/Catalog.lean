/-
# BibAudit.Catalog — the checks there are.

Twenty checks, each declared once: its name, what it looks at, how often it runs, whether it runs
by default, and a description.  Everything else that lists, selects or explains checks goes through
this table, in its order.
-/
namespace BibAudit

/-- What a check looks at. -/
inductive Domain
  /-- Bibliography entries. -/
  | bib
  /-- Document text. -/
  | tex
deriving DecidableEq, Repr

/-- How often a check runs, and on what. -/
inductive Granularity
  /-- Once for every entry. -/
  | perEntry
  /-- Once for the whole bibliography and its citations. -/
  | collection
  /-- Once for every run of this many consecutive words. -/
  | window (words : Nat)
deriving DecidableEq, Repr

/-- The checks. -/
inductive Check
  | duplicateEntries
  | misformattedMonth
  | illegalChars
  | unquotedAbbreviations
  | unquotedNames
  | overquotedTitle
  | isbn
  | uniformDoiUrl
  | missingDoi
  | rfcDois
  | identicalTitles
  | presentFields
  | nameConsistency
  | fullFirstNames
  | localCopies
  | uncitedCitations
  | undefinedCitations
  | numberWordHyphen
  | separatedWords
  | repeatedWords
deriving DecidableEq, Repr

namespace Check

/-- All checks, in the order in which they run and are listed. -/
def all : List Check :=
  [.duplicateEntries, .misformattedMonth, .illegalChars, .unquotedAbbreviations, .unquotedNames,
    .overquotedTitle, .isbn, .uniformDoiUrl, .missingDoi, .rfcDois, .identicalTitles,
    .presentFields, .nameConsistency, .fullFirstNames, .localCopies, .uncitedCitations,
    .undefinedCitations, .numberWordHyphen, .separatedWords, .repeatedWords]

/-- The name by which a check is selected and suppressed. -/
def name : Check → String
  | duplicateEntries => "duplicate-entries-by-name"
  | misformattedMonth => "misformatted-month"
  | illegalChars => "entries-with-illegal-chars"
  | unquotedAbbreviations => "entries-with-unquoted-abbreviations"
  | unquotedNames => "entries-with-unquoted-names"
  | overquotedTitle => "entries-with-overquoted-title"
  | isbn => "check-isbn"
  | uniformDoiUrl => "check-uniform-doi-url"
  | missingDoi => "check-missing-doi"
  | rfcDois => "check-rfc-dois"
  | identicalTitles => "check-identical-titles"
  | presentFields => "check-present-fields"
  | nameConsistency => "check-name-consistency"
  | fullFirstNames => "check-full-first-names"
  | localCopies => "check-local-copies"
  | uncitedCitations => "uncited-citations"
  | undefinedCitations => "undefined-citations"
  | numberWordHyphen => "number-word-hyphen"
  | separatedWords => "separated-words"
  | repeatedWords => "repeated-words"

/-- How often a check runs. -/
def granularity : Check → Granularity
  | duplicateEntries | identicalTitles | uncitedCitations | undefinedCitations => .collection
  | numberWordHyphen | separatedWords => .window 2
  | repeatedWords => .window 20
  | _ => .perEntry

/-- What a check looks at: windows are taken from documents, all else from the bibliography. -/
def domain (c : Check) : Domain :=
  match c.granularity with
  | .window _ => .tex
  | _ => .bib

/-- The check runs unless something else is selected. -/
def byDefault : Check → Bool
  | fullFirstNames | localCopies | repeatedWords => false
  | _ => true

/-- What the check finds, for the terminal. -/
def description : Check → String
  | duplicateEntries =>
    "Finds entries which share the same citation key. Only one of them can win when the " ++
     "document is typeset, which usually leads to surprising results."
  | misformattedMonth =>
    "Months are expected unquoted as three-letter lowercase English abbreviations " ++
     "(month = jan, ..., month = dec). Quoted months like \x7bmar\x7d or multi-part values " ++
     "are reported because the style cannot localize them."
  | illegalChars =>
    "Finds special characters in title or booktitle, such as typographic quotation marks " ++
     "or dashes, which frequently break typesetting."
  | unquotedAbbreviations =>
    "Finds mixed-case abbreviations in the title that are not protected by braces. " ++
     "title = \x7bHow to use AES\x7d may be typeset as \"How to use aes\"."
  | unquotedNames =>
    "Finds proper names from a built-in reference list in the title that are not " ++
     "protected by braces. title = \x7bHow to use the Internet\x7d may become \"the internet\"."
  | overquotedTitle =>
    "Finds titles wrapped as a whole in an extra pair of braces, e.g. " ++
     "title = \x7b\x7bHow To Use The Internet\x7d\x7d, which disables case handling for every word."
  | isbn =>
    "Validates the ISBN-10 or ISBN-13 checksum and the hyphenation (n-nnn-nnnnn-n or " ++
     "nnn-n-nnn-nnnnn-n). Suggests the ISBN-13 form for valid ISBN-10 values."
  | uniformDoiUrl =>
    "For entries with a DOI or URN, checks that the URL points to the resolver " ++
     "(https://dx.doi.org/<doi>, https://nbn-resolving.org/<urn>). RFCs, detected by a " ++
     "citation key of the form rfc<n>, are expected to link " ++
     "https://tools.ietf.org/rfc/rfc<n>.txt instead."
  | missingDoi =>
    "Finds entries without any persistent identifier. Mentions when a DOI appears to be " ++
     "hidden in another field and suggests a publisher search for IEEE, Springer, ACM and " ++
     "Elsevier publications."
  | rfcDois =>
    "Checks that RFC entries carry the DOI format of RFC 7669 (10.17487/rfc<n>)."
  | identicalTitles =>
    "Finds different entries with exactly the same title, a likely duplicate under two " ++
     "citation keys."
  | presentFields =>
    "Checks that the fields expected for an entry type are present, e.g. an article " ++
     "needs a journal, and reports unknown entry types."
  | nameConsistency =>
    "Checks that author first names are abbreviated consistently within one entry. " ++
     "\"F. Bar and M. Koo\" and \"Foo Bar and Moo Koo\" pass, \"F. Bar and Moo Koo\" does not."
  | fullFirstNames =>
    "Checks that author first names are spelled out in full. RFCs are exempt."
  | localCopies =>
    "Checks that a local copy <key>.pdf or <key>.txt of every entry exists in the local " ++
     "directory and links a scholar search for missing ones."
  | uncitedCitations =>
    "When documents are given, finds bibliography entries that are never cited."
  | undefinedCitations =>
    "When documents are given, finds citations of keys that no bibliography entry " ++
     "defines."
  | numberWordHyphen =>
    "Finds a number followed by 'bit' that probably wants a hyphen ('32-bit " ++
     "architecture'). May report false positives such as 'the leftmost 4 bits'."
  | separatedWords =>
    "Finds word pairs usually written as one word ('bit stream', 'byte code', 'run time')."
  | repeatedWords =>
    "Finds word stems that repeat four or more times within twenty consecutive words."

/-- The check with exactly this name. -/
def ofName? (name : String) : Option Check :=
  all.find? fun c => c.name == name

theorem mem_all (c : Check) : c ∈ all := by
  cases c <;> decide

theorem name_injective {a b : Check} (h : a.name = b.name) : a = b := by
  revert h
  cases a <;> cases b <;> decide

end Check

end BibAudit
