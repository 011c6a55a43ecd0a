import BibAudit.Bib.Reader
import BibAudit.Bibliography
import BibAudit.Clock
import BibAudit.CommandLine.Run
import BibAudit.Explain
import BibAudit.Files.LocalCopies
import BibAudit.Files.Tree
import BibAudit.Identifier
import BibAudit.Isbn
import BibAudit.Lint
import BibAudit.Main
import BibAudit.Proofs.Bib.Account
import BibAudit.Proofs.Bib.Entries
import BibAudit.Proofs.Bib.Inert
import BibAudit.Proofs.Bib.Layout
import BibAudit.Proofs.Bib.Resume
import BibAudit.Proofs.Bib.RoundTrip
import BibAudit.Proofs.Bib.Waiting
import BibAudit.Proofs.Checks.Abbreviations
import BibAudit.Proofs.Checks.Citations
import BibAudit.Proofs.Checks.Duplication
import BibAudit.Proofs.Checks.Link
import BibAudit.Proofs.Checks.Month
import BibAudit.Proofs.Checks.Repetition
import BibAudit.Proofs.Identifier
import BibAudit.Proofs.Isbn.Conversion
import BibAudit.Proofs.Lint.Attribution
import BibAudit.Proofs.Lint.Independence
import BibAudit.Proofs.Lint.Isolation
import BibAudit.Proofs.Lint.Scope
import BibAudit.Proofs.Lint.Suppression
import BibAudit.Proofs.Lint.Truncation
import BibAudit.Proofs.Location
import BibAudit.Proofs.Lookup
import BibAudit.Proofs.PersonName.Lists
import BibAudit.Proofs.Report.Lines
import BibAudit.Proofs.Report.RoundTrip
import BibAudit.Proofs.Selection
import BibAudit.Proofs.Tex.Comment
import BibAudit.Proofs.Tex.Dollar
import BibAudit.Proofs.Tex.Grammar
import BibAudit.Proofs.Tex.Markup
import BibAudit.Proofs.Tex.Scan
import BibAudit.Proofs.Value.Delimiter
import BibAudit.Proofs.Value.Plain
import BibAudit.Proofs.Value.Spans
import BibAudit.Report.Lines
import BibAudit.Session
import BibAudit.Settings
import BibAudit.Tex.Prose
import BibAudit.Value.Unprotected
