import CrateDocs.Binary64
import CrateDocs.Command.Arguments
import CrateDocs.Command.Files
import CrateDocs.Command.Report
import CrateDocs.Command.Run
import CrateDocs.Crate.Basic
import CrateDocs.Crate.Dangling
import CrateDocs.Crate.Decode
import CrateDocs.Crate.Error
import CrateDocs.Crate.Format
import CrateDocs.Crate.Lookup
import CrateDocs.Crate.Members
import CrateDocs.Crate.Mode
import CrateDocs.Crate.Suggest
import CrateDocs.Decimal.Fixed
import CrateDocs.Decimal.Shortest
import CrateDocs.Fault
import CrateDocs.Generics
import CrateDocs.Header
import CrateDocs.Item.Basic
import CrateDocs.Item.Format
import CrateDocs.Item.Kind
import CrateDocs.Item.Payload
import CrateDocs.Item.Payload.Format
import CrateDocs.ItemId
import CrateDocs.ItemPath
import CrateDocs.Json.Basic
import CrateDocs.Json.Canonical
import CrateDocs.Json.Lexeme
import CrateDocs.Json.Numeral
import CrateDocs.Json.Printer
import CrateDocs.Json.Reader
import CrateDocs.Main
import CrateDocs.Proofs.Command.Check
import CrateDocs.Proofs.Command.Flags
import CrateDocs.Proofs.Command.Lookup
import CrateDocs.Proofs.Command.Setup
import CrateDocs.Proofs.Crate.Agreement
import CrateDocs.Proofs.Crate.Bare
import CrateDocs.Proofs.Crate.Checks
import CrateDocs.Proofs.Crate.Coherence
import CrateDocs.Proofs.Crate.Dangling
import CrateDocs.Proofs.Crate.Decode
import CrateDocs.Proofs.Crate.Depth
import CrateDocs.Proofs.Crate.Entry
import CrateDocs.Proofs.Crate.ExternalCrates
import CrateDocs.Proofs.Crate.Firsts
import CrateDocs.Proofs.Crate.Isolation
import CrateDocs.Proofs.Crate.Kinds
import CrateDocs.Proofs.Crate.Members
import CrateDocs.Proofs.Crate.Phases
import CrateDocs.Proofs.Crate.Ranking
import CrateDocs.Proofs.Crate.RoundTrip
import CrateDocs.Proofs.Crate.Search
import CrateDocs.Proofs.Crate.Strictness
import CrateDocs.Proofs.Exactness.Containment
import CrateDocs.Proofs.Exactness.Crate
import CrateDocs.Proofs.Exactness.Entries
import CrateDocs.Proofs.Exactness.Item
import CrateDocs.Proofs.Exactness.Record
import CrateDocs.Proofs.Exactness.TypeExpr
import CrateDocs.Proofs.Faults.Decode
import CrateDocs.Proofs.Faults.Item
import CrateDocs.Proofs.Faults.Record
import CrateDocs.Proofs.Faults.TypeExpr
import CrateDocs.Proofs.Indifference.Alike
import CrateDocs.Proofs.Indifference.Decode
import CrateDocs.Proofs.Indifference.Item
import CrateDocs.Proofs.Indifference.Layout
import CrateDocs.Proofs.Indifference.Record
import CrateDocs.Proofs.Indifference.TypeExpr
import CrateDocs.Proofs.ItemPath.Canonicality
import CrateDocs.Proofs.ItemPath.RoundTrip
import CrateDocs.Proofs.ItemPath.Split
import CrateDocs.Proofs.Json.Canonicity
import CrateDocs.Proofs.Json.Depth
import CrateDocs.Proofs.Json.Integers
import CrateDocs.Proofs.Json.Lexemes
import CrateDocs.Proofs.Json.Regular
import CrateDocs.Proofs.Json.RoundTrip
import CrateDocs.Proofs.Json.WrittenForm
import CrateDocs.Proofs.Json.WrittenNumbers
import CrateDocs.Proofs.Renaming.Basic
import CrateDocs.Proofs.Renaming.Crate
import CrateDocs.Proofs.Renaming.Item
import CrateDocs.Proofs.Renaming.TypeExpr
import CrateDocs.Proofs.Survey.Generics
import CrateDocs.Proofs.Survey.Mentions
import CrateDocs.Proofs.Survey.Parts
import CrateDocs.Proofs.Survey.Pruning
import CrateDocs.Proofs.Survey.Types
import CrateDocs.Proofs.Survey.Visits
import CrateDocs.Proofs.Text.Trim
import CrateDocs.Proofs.TypeExpr.Parts
import CrateDocs.Proofs.Unsigned.Spelling
import CrateDocs.Record
import CrateDocs.Rounding
import CrateDocs.Settings.Basic
import CrateDocs.Settings.Lexeme
import CrateDocs.Settings.Statement
import CrateDocs.Similarity
import CrateDocs.Slot
import CrateDocs.Survey.Basic
import CrateDocs.Survey.Mentions
import CrateDocs.Survey.Trace
import CrateDocs.Table
import CrateDocs.Text.Blank
import CrateDocs.Text.Hex
import CrateDocs.TypeExpr.Basic
import CrateDocs.TypeExpr.Reading
import CrateDocs.TypeExpr.Written
import CrateDocs.Unsigned
