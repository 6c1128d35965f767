import ScriptLint.Main
import ScriptLint.Proofs.Nesting.Balance
import ScriptLint.Proofs.Nesting.Fates
import ScriptLint.Proofs.Names.Declarations
import ScriptLint.Proofs.Names.Uses
import ScriptLint.Proofs.Names.Account
import ScriptLint.Proofs.Names.Calls
import ScriptLint.Proofs.Names.Catalogues
import ScriptLint.Proofs.Subjects
import ScriptLint.Proofs.Validity
import ScriptLint.Proofs.Text.Lines
import ScriptLint.Proofs.Text.Trimming
import ScriptLint.Proofs.Reading.Markers
import ScriptLint.Proofs.Reading.Tokens
import ScriptLint.Proofs.Reading.Zones
import ScriptLint.Proofs.Reading.Literals
import ScriptLint.Proofs.Reading.Regions
import ScriptLint.Proofs.Reading.Scanning
import ScriptLint.Proofs.Reading.Cuts
import ScriptLint.Proofs.Reading.Tiling
import ScriptLint.Proofs.Reading.CommentFree
import ScriptLint.Proofs.Reading.Extents
import ScriptLint.Proofs.Reading.Numerals
import ScriptLint.Proofs.Text.Endings
import ScriptLint.Proofs.Text.Spellings
import ScriptLint.Proofs.Layout.Script
import ScriptLint.Proofs.Layout.CodeOnly
import ScriptLint.Proofs.Layout.Spacing
import ScriptLint.Proofs.Contents.Masked
import ScriptLint.Proofs.Contents.Line
import ScriptLint.Proofs.Contents.Script
import ScriptLint.Proofs.Places
import ScriptLint.Proofs.Order
import ScriptLint.Proofs.Cost.Doubles
import ScriptLint.Proofs.Cost.Totals
import ScriptLint.Proofs.Growth
import ScriptLint.Proofs.Labels.Relabelled
import ScriptLint.Proofs.Layout.Lines
import ScriptLint.Proofs.Text.Hex
import ScriptLint.Proofs.Decimal.Nearest
import ScriptLint.Proofs.Decimal.Shortest
import ScriptLint.Proofs.Decimal.Scientific
import ScriptLint.Proofs.Decimal.Written
import ScriptLint.Proofs.Json.Scalars
import ScriptLint.Proofs.Json.Values
import ScriptLint.Proofs.Codec
import ScriptLint.Proofs.Json.Codec
import ScriptLint.Proofs.Report.Record
import ScriptLint.Proofs.Toml.Strings
import ScriptLint.Proofs.Toml.Scalars
import ScriptLint.Proofs.Toml.Lines
import ScriptLint.Proofs.Toml.Tables
import ScriptLint.Proofs.Toml.Documents
import ScriptLint.Proofs.Settings.Demands
import ScriptLint.Proofs.Settings.Saved
import ScriptLint.Proofs.Command.Reading
import ScriptLint.Proofs.Command.Outcomes
import ScriptLint.Proofs.Text.Case
import ScriptLint.Proofs.Reading.Case
import ScriptLint.Proofs.Labels.Respelled
import ScriptLint.Proofs.Labels.Spelling
import ScriptLint.Proofs.Reading.Alphabet
import ScriptLint.Proofs.Names.Division
import ScriptLint.Proofs.Cost.Halves
import ScriptLint.Proofs.Cost.Counts
import ScriptLint.Proofs.Text.Mapped
import ScriptLint.Proofs.Reading.Mapped
import ScriptLint.Proofs.Contents.Places
import ScriptLint.Proofs.Reading.Reworded
import ScriptLint.Proofs.Labels.Renamed
import ScriptLint.Proofs.Names.Headers
import ScriptLint.Proofs.Names.Words
import ScriptLint.Proofs.Report
import ScriptLint.Proofs.Cost.Range
